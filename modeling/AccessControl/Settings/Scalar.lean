import AccessControl.Text.Digit
import AccessControl.Validation

/-!
# Switches and whole numbers

Settings are often given as text.  A switch is one of a few words in any case,
or one or zero; a whole number may have blanks around it, a sign, leading zeros,
single underscores, and a point with zeros after it.
-/

namespace AccessControl

namespace Validation

def onWords : List String := ["1", "true", "t", "yes", "y", "on"]

def offWords : List String := ["0", "false", "f", "no", "n", "off"]

/-- The switch position that a word stands for. -/
def switchWord? (word : String) : Option Bool :=
  let lowered := Text.lowered word
  if onWords.contains lowered then some true
  else if offWords.contains lowered then some false
  else none

/-- What a number is as an integer of 64 bits. -/
inductive Whole where
  | integer (value : Int)
  | fractional
  | infinite
  | tooLarge

def wordLimit : Int := Nat.pow 2 63

/-- A double as an integer; the ends of the range are left out. -/
def wholeDouble (d : Double) : Whole :=
  match d.extended with
  | .finite scaled =>
      if Int.emod scaled unitsPerOne ≠ 0 then .fractional
      else
        let value := Int.tdiv scaled unitsPerOne
        if -wordLimit < value && value < wordLimit then .integer value
        else .tooLarge
  | _ => .infinite

def wholeWord : Number → Whole
  | .integer value =>
      if -wordLimit ≤ value && value < wordLimit then .integer value
      else .tooLarge
  | .double d => wholeDouble d

def switch (place : List Step) (input : Value) : Verdict Bool :=
  match input with
  | .boolean value => .ok value
  | .text word =>
      match switchWord? word with
      | some value => .ok value
      | none => Verdict.refuse .unreadableBoolean place input
  | .number n =>
      match wholeWord n with
      | .integer 0 => .ok false
      | .integer 1 => .ok true
      | .integer _ => Verdict.refuse .unreadableBoolean place input
      | _ => Verdict.refuse .notBoolean place input
  | _ => Verdict.refuse .notBoolean place input

/-- The text without the zeros in front; one zero stays when nothing but zeros or
a point follows.  A minus sign may stand behind the zeros. -/
def withoutLeadingZeros? : List Char → Option (List Char)
  | '0' :: rest =>
      match rest.dropWhile fun c => c = '0' || c = '_' with
      | [] => some [rest.getLastD '0']
      | '.' :: decimals =>
          some ((('0' :: rest).take (rest.length - decimals.length)).getLastD '0' ::
            '.' :: decimals)
      | c :: others =>
          if Text.isDigit c || c = '-' then some (c :: others) else none
  | c :: rest =>
      if Text.isDigit c || c = '-' then some (c :: rest) else none
  | [] => none

/-- The text up to its point, when zeros and nothing else follow the point. -/
def withoutZeroDecimals (text : List Char) : List Char :=
  match text.dropWhile (· != '.') with
  | _ :: decimals =>
      if !decimals.isEmpty && decimals.all (· = '0') then
        text.takeWhile (· != '.')
      else text
  | [] => text

/-- The text without its underscores, when each stands alone between others. -/
def withoutUnderscores (text : List Char) : List Char :=
  if text.head? = some '_' || text.getLast? = some '_' || doubled text then text
  else text.filter (· != '_')
where
  doubled : List Char → Bool
    | c :: d :: rest => (c = '_' && d = '_') || doubled (d :: rest)
    | _ => false

/-- Digits that do not start with a zero, or a zero alone. -/
def natural? (text : List Char) : Option Nat :=
  match text with
  | ['0'] => some 0
  | '0' :: _ => none
  | [] => none
  | digits =>
      if digits.all Text.isDigit then some (Text.ofDigits digits) else none

/-- The parts of a text that may denote a whole number: whether a minus sign stands
in front, and what follows the sign, without zeros in front and zeros after the
point. -/
def parted? (text : List Char) : Option (Bool × List Char) :=
  let part (negative : Bool) (size : List Char) : Option (Bool × List Char) :=
    (withoutLeadingZeros? size).map fun unpadded =>
      (negative, withoutZeroDecimals unpadded)
  match Text.trim Text.isSpace text with
  | '+' :: '-' :: _ => none
  | '+' :: size => part false size
  | '-' :: size => part true size
  | size => part false size

/-- The whole number that digits behind a sign denote. -/
def signedNatural? : List Char → Option Int
  | '-' :: digits => (natural? digits).map fun n => -(n : Int)
  | digits => (natural? digits).map fun n => (n : Int)

/-- Whether a text begins with a sign and digits beyond all that are read. -/
def isTooLong (text : List Char) : Bool :=
  let digits :=
    match text with
    | '-' :: digits => digits
    | digits => digits
  let front := text.length - digits.length
  Text.mostDigits < front + (digits.takeWhile Text.isDigit).length

/-- The whole number with this size.  A size behind a minus sign has no sign of its
own. -/
def sized? (negative : Bool) (size : List Char) : Option Int :=
  if negative then (natural? size).map fun n => -(n : Int)
  else signedNatural? size

/-- The whole number that a text denotes, or what is wrong with it.  Too many
digits are said to be so where they stand together, and not where underscores
divide them. -/
def wholeNumberOf (text : List Char) : Except Defect Int :=
  match parted? text with
  | none => .error .unreadableInteger
  | some (negative, size) =>
      if isTooLong size then .error .excessiveInteger
      else
        let digits := withoutUnderscores size
        if isTooLong digits then .error .unreadableInteger
        else
          match sized? negative digits with
          | some n => .ok n
          | none => .error .unreadableInteger

/-- A whole number; one given as such may have any size. -/
def wholeNumber (place : List Step) (input : Value) : Verdict Int :=
  match input with
  | .boolean value => .ok (if value then 1 else 0)
  | .text value =>
      match wholeNumberOf value.toList with
      | .ok n => .ok n
      | .error defect => Verdict.refuse defect place input
  | .number (.integer n) => .ok n
  | .number (.double d) =>
      match wholeDouble d with
      | .integer n => .ok n
      | .fractional => Verdict.refuse .fractionalInteger place input
      | .infinite => Verdict.refuse .infiniteInteger place input
      | .tooLarge => Verdict.refuse .excessiveInteger place input
  | _ => Verdict.refuse .notInteger place input

end Validation

end AccessControl
