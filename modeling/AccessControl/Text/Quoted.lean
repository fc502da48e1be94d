import AccessControl.Text.Basic
import AccessControl.Text.Unassigned

/-!
# Texts in messages

A text in a message stands between single quotes, or between double quotes when
it holds a single quote and no double quote.  The quote in use and the backslash
are escaped, and so is every character that cannot be seen.

A text that needs more room than a message gives it is shown by its beginning and
its end, with three points between them.  Room is counted in bytes, a character
takes as many as its UTF-8 form has, and no character is cut in two.
-/

namespace AccessControl.Text

/-- The digits of `value` in base sixteen, in lower case, filled up with zeros
to `width` digits. -/
def hexDigits (width value : Nat) : List Char :=
  let digits := Nat.toDigits 16 value
  List.replicate (width - digits.length) '0' ++ digits

/-- Controls, separators other than the space, format characters, private
characters and code points that stand for no character. -/
def isInvisible (c : Char) : Bool :=
  let n := c.toNat
  n < 0x20 || (0x7f ≤ n && n ≤ 0xa0) || n == 0xad ||
    (isBlank c && n != 0x20) ||
    (0x600 ≤ n && n ≤ 0x605) || n == 0x61c || n == 0x6dd || n == 0x70f ||
    n == 0x890 || n == 0x891 || n == 0x8e2 || n == 0x180e ||
    (0x200b ≤ n && n ≤ 0x200f) || (0x202a ≤ n && n ≤ 0x202e) ||
    (0x2060 ≤ n && n ≤ 0x206f) || (0xe000 ≤ n && n ≤ 0xf8ff) ||
    n == 0xfeff || (0xfff9 ≤ n && n ≤ 0xfffb) || n == 0x110bd ||
    n == 0x110cd || (0x13430 ≤ n && n ≤ 0x1343f) ||
    (0x1bca0 ≤ n && n ≤ 0x1bca3) || (0x1d173 ≤ n && n ≤ 0x1d17a) ||
    (0xe0000 ≤ n && !(0xe0100 ≤ n && n ≤ 0xe01ef)) || isUnassigned c

def numbered (c : Char) : List Char :=
  if c.toNat < 0x100 then '\x5c' :: 'x' :: hexDigits 2 c.toNat
  else if c.toNat < 0x10000 then '\x5c' :: 'u' :: hexDigits 4 c.toNat
  else '\x5c' :: 'U' :: hexDigits 8 c.toNat

/-- A character in ASCII: every other one by its code point. -/
def asciiEscape (c : Char) : List Char :=
  if c.toNat < 0x80 then [c] else numbered c

/-- How one character is written between the quotes `mark`. -/
def escape (mark c : Char) : List Char :=
  if c = mark || c = '\x5c' then ['\x5c', c]
  else if c = '\n' then ['\x5c', 'n']
  else if c = '\r' then ['\x5c', 'r']
  else if c = '\t' then ['\x5c', 't']
  else if isInvisible c then numbered c
  else [c]

/-- The quote that a text stands between. -/
def quoteMark (text : List Char) : Char :=
  if text.contains '\x27' && !text.contains '\x22' then '\x22' else '\x27'

def quoted (text : String) : String :=
  let mark := quoteMark text.toList
  String.ofList (mark :: text.toList.flatMap (escape mark) ++ [mark])

def byteSize : List Char → Nat
  | [] => 0
  | c :: rest => c.utf8Size + byteSize rest

/-- The longest beginning of a text for which there is room. -/
def startWithin (room : Nat) : List Char → List Char
  | [] => []
  | c :: rest =>
      if c.utf8Size ≤ room then c :: startWithin (room - c.utf8Size) rest else []

/-- The longest end of a text for which there is room. -/
def endWithin (room : Nat) (text : List Char) : List Char :=
  (startWithin room text.reverse).reverse

/-- A text as it is when it has room within the limit; else its beginning in one
half of the limit, rounded up, and its end in one byte less than that. -/
def shortened (limit : Nat) (text : List Char) : List Char :=
  if byteSize text ≤ limit then text
  else
    let half := (limit + 1) / 2
    startWithin half text ++ "...".toList ++ endWithin (half - 1) text

end AccessControl.Text
