import AccessControl.Value

/-!
# Writing JSON

A value is written without white space and with ASCII characters alone.
Identifiers and points in time have no JSON form.
-/

namespace AccessControl.Json

def unitEscape (unit : Nat) : List Char :=
  '\x5c' :: 'u' :: Text.hexDigits 4 unit

/-- How one character stands in a string: quote, backslash and controls are
escaped, and every character outside ASCII is written as its code units. -/
def escape (c : Char) : List Char :=
  let n := c.toNat
  if c = '\x22' then ['\x5c', '\x22']
  else if c = '\x5c' then ['\x5c', '\x5c']
  else if c = '\n' then ['\x5c', 'n']
  else if c = '\r' then ['\x5c', 'r']
  else if c = '\t' then ['\x5c', 't']
  else if c = '\x08' then ['\x5c', 'b']
  else if c = '\x0c' then ['\x5c', 'f']
  else if 0x20 ≤ n && n < 0x7f then [c]
  else if n < 0x10000 then unitEscape n
  else
    unitEscape (0xd800 + (n - 0x10000) / 0x400) ++
      unitEscape (0xdc00 + (n - 0x10000) % 0x400)

def writeText (text : String) : List Char :=
  '\x22' :: text.toList.flatMap escape ++ ['\x22']

/-- Infinities and what is not a number are written as words. -/
def writeNumber (n : Number) : List Char :=
  match n.extended with
  | .nan => "NaN".toList
  | .positiveInfinity => "Infinity".toList
  | .negativeInfinity => "-Infinity".toList
  | .finite _ => n.text

mutual

/-- The JSON form of a value, when it has one. -/
def write? : Value → Option (List Char)
  | .null => some "null".toList
  | .boolean true => some "true".toList
  | .boolean false => some "false".toList
  | .number n => some (writeNumber n)
  | .text s => some (writeText s)
  | .list items => (writeItems? items).map fun inside => '[' :: inside ++ [']']
  | .record fields =>
      (writeFields? fields).map fun inside => '\x7b' :: inside ++ ['\x7d']
  | .id _ => none
  | .date _ => none

def writeItems? : List Value → Option (List Char)
  | [] => some []
  | [item] => write? item
  | item :: rest => do
      let first ← write? item
      let others ← writeItems? rest
      some (first ++ ',' :: others)

def writeFields? : Fields → Option (List Char)
  | [] => some []
  | [(name, item)] => (write? item).map fun inside => writeText name ++ ':' :: inside
  | (name, item) :: rest => do
      let first ← write? item
      let others ← writeFields? rest
      some (writeText name ++ ':' :: first ++ ',' :: others)

end

end AccessControl.Json
