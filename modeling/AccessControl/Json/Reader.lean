import AccessControl.Text.Digit
import AccessControl.Value

/-!
# Reading JSON

The reader works on the characters that are left.  A fault names how many of
them were left at the place it is reported for, from which the position in the
text follows.  Of two fields with one name the later value stays, in the place
of the earlier one.  `NaN`, `Infinity` and `-Infinity` are read as numbers.
Values are nested, and integers are long, up to a limit.
-/

namespace AccessControl.Json

/-- Why a text is not read.  The place of a fault is counted from the end of the
text while it is read, and from its beginning afterwards. -/
inductive Fault where
  | malformed (place : Nat)
  /-- Lists or records are nested too deep; which of the two, the innermost says. -/
  | tooDeep (isList : Bool)
  | tooManyDigits
deriving DecidableEq, Repr

def failAt {α : Type} (rest : List Char) : Except Fault α :=
  .error (.malformed rest.length)

def isWhite (c : Char) : Bool :=
  c = ' ' || c = '\t' || c = '\n' || c = '\r'

def skipWhite (text : List Char) : List Char :=
  text.dropWhile isWhite

/-- The code unit given by four hexadecimal digits. -/
def unit? (a b c d : Char) : Option Nat :=
  match Hex.value? a, Hex.value? b, Hex.value? c, Hex.value? d with
  | some a, some b, some c, some d => some (4096 * a + 256 * b + 16 * c + d)
  | _, _, _, _ => none

/-- The character that a backslash and the letter stand for. -/
def escaped? (c : Char) : Option Char :=
  if c = '\x22' then some '\x22'
  else if c = '\x5c' then some '\x5c'
  else if c = '/' then some '/'
  else if c = 'b' then some '\x08'
  else if c = 'f' then some '\x0c'
  else if c = 'n' then some '\n'
  else if c = 'r' then some '\r'
  else if c = 't' then some '\t'
  else none

/-- The code points and code units up to the closing quote, and what follows it.
A string without a closing quote is reported at its opening one. -/
def units (opening : List Char) :
    List Char → Except Fault (List Nat × List Char)
  | [] => failAt opening
  | '\x22' :: rest => .ok ([], rest)
  | '\x5c' :: 'u' :: rest =>
      match rest with
      | a :: b :: c :: d :: after =>
          match unit? a b c d with
          | some unit =>
              if after.isEmpty then failAt ('u' :: rest)
              else (units opening after).map fun read => (unit :: read.1, read.2)
          | none => failAt ('u' :: rest)
      | _ => failAt ('u' :: rest)
  | '\x5c' :: c :: rest =>
      match escaped? c with
      | some plain =>
          (units opening rest).map fun read => (plain.toNat :: read.1, read.2)
      | none => failAt ('\x5c' :: c :: rest)
  | ['\x5c'] => failAt opening
  | c :: rest =>
      if c.toNat < 0x20 then failAt (c :: rest)
      else (units opening rest).map fun read => (c.toNat :: read.1, read.2)

/-- Joins each pair of surrogates to the character it stands for.  A text is made of
characters here, and half of a pair is none: what only differs in such halves is
read as one text. -/
def joinUnits : List Nat → List Char
  | [] => []
  | [unit] => [character unit]
  | high :: low :: rest =>
      if 0xd800 ≤ high && high ≤ 0xdbff && 0xdc00 ≤ low && low ≤ 0xdfff then
        Char.ofNat (0x10000 + (high - 0xd800) * 0x400 + (low - 0xdc00)) ::
          joinUnits rest
      else character high :: joinUnits (low :: rest)
where
  /-- A surrogate without its partner becomes the replacement character. -/
  character (unit : Nat) : Char :=
    if 0xd800 ≤ unit && unit ≤ 0xdfff then '\ufffd' else Char.ofNat unit

/-- Reads a string whose opening quote has been passed. -/
def string (text : List Char) : Except Fault (String × List Char) :=
  (units ('\x22' :: text) text).map fun read =>
    (String.ofList (joinUnits read.1), read.2)

def digits (text : List Char) : List Char × List Char :=
  (text.takeWhile Text.isDigit, text.dropWhile Text.isDigit)

/-- The digits after a point, when there are any. -/
def fraction : List Char → Option (List Char × List Char)
  | '.' :: rest =>
      let (found, after) := digits rest
      if found.isEmpty then none else some (found, after)
  | _ => none

/-- The power of ten after an `e`, when it has digits. -/
def exponent : List Char → Option (Int × List Char)
  | e :: rest =>
      if e = 'e' || e = 'E' then
        let (negative, rest) :=
          match rest with
          | '-' :: rest => (true, rest)
          | '+' :: rest => (false, rest)
          | rest => (false, rest)
        let (found, after) := digits rest
        if found.isEmpty then none
        else
          let size : Int := Text.ofDigits found
          some (if negative then -size else size, after)
      else none
  | [] => none

/-- The integer digits: a zero alone or a run that starts with another digit. -/
def wholeDigits : List Char → Option (List Char × List Char)
  | '0' :: rest => some (['0'], rest)
  | text =>
      let (found, after) := digits text
      if found.isEmpty then none else some (found, after)

/-- Reads an unsigned number: an integer unless a fraction or an exponent
follows its digits. -/
def unsigned (negative : Bool) (text : List Char) :
    Option (Number × List Char) := do
  let (whole, rest) ← wholeDigits text
  let (decimals, afterFraction) := (fraction rest).getD ([], rest)
  let (power, after) := (exponent afterFraction).getD (0, afterFraction)
  if decimals.isEmpty && (exponent afterFraction).isNone then
    let size : Int := Text.ofDigits whole
    some (.integer (if negative then -size else size), rest)
  else
    let shift : Int := decimals.length
    let double :=
      Double.ofDecimal negative (Text.ofDigits (whole ++ decimals))
        (power - shift)
    some (.double double, after)

def number? : List Char → Option (Number × List Char)
  | '-' :: rest => unsigned true rest
  | text => unsigned false text

/-- A number without a finite value. -/
def special (bits : UInt64) : Value :=
  .number (.double ⟨bits⟩)

def word? : List Char → Option (Value × List Char)
  | 'n' :: 'u' :: 'l' :: 'l' :: rest => some (.null, rest)
  | 't' :: 'r' :: 'u' :: 'e' :: rest => some (.boolean true, rest)
  | 'f' :: 'a' :: 'l' :: 's' :: 'e' :: rest => some (.boolean false, rest)
  | 'N' :: 'a' :: 'N' :: rest => some (special 0x7ff8000000000000, rest)
  | 'I' :: 'n' :: 'f' :: 'i' :: 'n' :: 'i' :: 't' :: 'y' :: rest =>
      some (special 0x7ff0000000000000, rest)
  | '-' :: 'I' :: 'n' :: 'f' :: 'i' :: 'n' :: 'i' :: 't' :: 'y' :: rest =>
      some (special 0xfff0000000000000, rest)
  | _ => none

/-- The characters that numbers are made of. -/
def isNumberSign (c : Char) : Bool :=
  Text.isDigit c || c = '-' || c = '+' || c = '.' || c = 'e' || c = 'E'

/-- The characters of the number in front of `rest`. -/
def literal (text rest : List Char) : List Char :=
  let run := text.takeWhile isNumberSign
  run.take (run.length - (rest.takeWhile isNumberSign).length)

/-! ## Values -/

/-- What a number is read as, which stands with these characters in the text. -/
structure Manner where
  number : List Char → Number → Except Fault Value

/-- Values are nested at most so deep when nothing else is said.  The depth that can
be read depends on the calls that are under way, so it is given to the reader. -/
def deepest : Nat := 990

/-- A number as itself; an integer has at most so many digits. -/
def counted (characters : List Char) (n : Number) : Except Fault Value :=
  match n with
  | .integer _ =>
      if (characters.filter Text.isDigit).length ≤ Text.mostDigits then
        .ok (.number n)
      else .error .tooManyDigits
  | .double _ => .ok (.number n)

/-- Numbers are read as such. -/
def plainly : Manner := ⟨counted⟩

/-- Numbers are read as the texts they are written with. -/
def literally : Manner :=
  ⟨fun characters _ => .ok (.text (String.ofList characters))⟩

mutual

/-- Reads the value at the beginning of the text.  The fuel bounds how many
values, items and fields are read, and `depth` how deep they are nested. -/
def value (manner : Manner) :
    Nat → Nat → List Char → Except Fault (Value × List Char)
  | 0, _, text => failAt text
  | fuel + 1, depth, text =>
      match text with
      | '\x22' :: rest => (string rest).map fun read => (.text read.1, read.2)
      | '\x7b' :: rest =>
          match depth with
          | 0 => .error (.tooDeep false)
          | depth + 1 =>
              match skipWhite rest with
              | '\x7d' :: after => .ok (.record [], after)
              | inside =>
                  (members manner fuel depth [] inside).map fun read =>
                    (.record read.1, read.2)
      | '[' :: rest =>
          match depth with
          | 0 => .error (.tooDeep true)
          | depth + 1 =>
              match skipWhite rest with
              | ']' :: after => .ok (.list [], after)
              | inside =>
                  (items manner fuel depth inside).map fun read =>
                    (.list read.1, read.2)
      | _ =>
          match word? text with
          | some read => .ok read
          | none =>
              match number? text with
              | some (n, rest) =>
                  (manner.number (literal text rest) n).map fun read =>
                    (read, rest)
              | none => failAt text

/-- Reads the items of a list up to its closing bracket. -/
def items (manner : Manner) :
    Nat → Nat → List Char → Except Fault (List Value × List Char)
  | 0, _, text => failAt text
  | fuel + 1, depth, text => do
      let (item, rest) ← value manner fuel depth text
      match skipWhite rest with
      | ']' :: after => .ok ([item], after)
      | ',' :: after =>
          let (others, rest) ← items manner fuel depth (skipWhite after)
          .ok (item :: others, rest)
      | other => failAt other

/-- Reads the fields of a record up to its closing brace and adds them to those
already read. -/
def members (manner : Manner) :
    Nat → Nat → Fields → List Char → Except Fault (Fields × List Char)
  | 0, _, _, text => failAt text
  | fuel + 1, depth, fields, text =>
      match text with
      | '\x22' :: rest => do
          let (name, rest) ← string rest
          match skipWhite rest with
          | ':' :: after =>
              let (item, rest) ← value manner fuel depth (skipWhite after)
              let fields := fields.set name item
              match skipWhite rest with
              | '\x7d' :: after => .ok (fields, after)
              | ',' :: after =>
                  members manner fuel depth fields (skipWhite after)
              | other => failAt other
          | other => failAt other
      | other => failAt other

end

/-- Reads a text that holds one value and white space around it. -/
def document (manner : Manner) (depth : Nat) (text : List Char) :
    Except Fault Value := do
  let (read, rest) ←
    value manner (2 * text.length + 2) depth (skipWhite text)
  match skipWhite rest with
  | [] => .ok read
  | other => failAt other

/-- The fault with its place counted from the beginning of a text this long. -/
def Fault.fromStart (length : Nat) : Fault → Fault
  | malformed place => malformed (length - place)
  | fault => fault

def readAs (manner : Manner) (depth : Nat) (text : String) :
    Except Fault Value :=
  let source := text.toList
  (document manner depth source).mapError (Fault.fromStart source.length)

def read (text : String) (depth : Nat := deepest) : Except Fault Value :=
  readAs plainly depth text

end AccessControl.Json
