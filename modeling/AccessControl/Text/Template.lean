import AccessControl.Number.Notation
import AccessControl.Value

/-!
# Message templates

In a template a percent sign starts a slot for an argument: flags, a width, a
precision and a letter that says how the argument is written; two percent signs
stand for one.  The arguments are used up in order, or are looked up by a name
in brackets when there is one record of them.  A template is filled from the
left to the right, and the first slot that cannot be filled says why there is
no text; arguments that are left over are a fault at the end.
-/

namespace AccessControl.Text

inductive TemplateFault where
  /-- A slot ends before its letter, or its name before the closing bracket. -/
  | unfinished
  /-- No argument can be written as the letter says, for there is no such letter. -/
  | unknownLetter
  /-- A width or precision in the template is beyond all sizes. -/
  | excessive
  /-- An integer is asked for, and the argument is not a number. -/
  | notANumber
  | missing
  | unused
  /-- An argument is looked up by name, and there is no record of them. -/
  | notNamed
  /-- No argument has the name. -/
  | unknownName (name : String)
  /-- The argument is not of a kind that the letter can write. -/
  | unfit (argument : Value)
  /-- The argument is a number beyond those that the letter can write. -/
  | outOfRange
  /-- The text would be longer than any text. -/
  | tooLong

inductive Measure where
  | fixed (size : Nat)
  | argument

/-- Where the argument of a slot comes from. -/
inductive Source where
  | next
  | named (name : String)
  | unclosed

/-- A slot of a template; without a letter it is not finished. -/
structure Slot where
  source : Source
  flags : List Char
  width : Measure
  precision : Option Measure
  letter : Option Char

/-- The text up to the bracket that closes one opened before it, and what
follows; brackets inside come in pairs. -/
def bracketed? : Nat → List Char → Option (List Char × List Char)
  | _, [] => none
  | depth, c :: rest =>
      if c = ')' && depth = 0 then some ([], rest)
      else
        let inside :=
          if c = '(' then depth + 1 else if c = ')' then depth - 1 else depth
        (bracketed? inside rest).map fun found => (c :: found.1, found.2)

/-- The name in brackets after a percent sign, if there is one. -/
def slotSource : List Char → Source × List Char
  | '(' :: rest =>
      match bracketed? 0 rest with
      | some (name, after) => (.named (String.ofList name), after)
      | none => (.unclosed, [])
  | text => (.next, text)

def isFlag (c : Char) : Bool :=
  c = '-' || c = '+' || c = ' ' || c = '0' || c = '#'

/-- A run of digits as a number, or a star for an argument. -/
def measure (text : List Char) : Measure × List Char :=
  match text with
  | '*' :: rest => (.argument, rest)
  | text =>
      (.fixed (ofDigits (text.takeWhile isDigit)), text.dropWhile isDigit)

/-- The text without one letter for the size of an integer. -/
def withoutSize : List Char → List Char
  | 'h' :: rest | 'l' :: rest | 'L' :: rest => rest
  | text => text

/-- The slot after a percent sign, and what follows it. -/
def slot (text : List Char) : Slot × List Char :=
  let (source, text) := slotSource text
  let flags := text.takeWhile isFlag
  let (width, text) := measure (text.dropWhile isFlag)
  let (precision, text) :=
    match text with
    | '.' :: rest => (some (measure rest).1, (measure rest).2)
    | text => (none, text)
  let text := withoutSize text
  (⟨source, flags, width, precision, text.head?⟩, text.drop 1)

structure Layout where
  left : Bool
  zeros : Bool
  marked : Bool
  sign : List Char
  width : Nat
  precision : Option Nat

/-- An integer, not one cut from a fraction. -/
def exactInteger? : Value → Option Int
  | .boolean b => some (if b then 1 else 0)
  | .number (.integer n) => some n
  | _ => none

/-- No slot is filled up to so many characters. -/
def tooWide : Nat := Nat.pow 2 31

/-- A width is below this number, and not below its negative. -/
def widthLimit : Nat := Nat.pow 2 63

/-- A precision is below this number, and not below its negative. -/
def precisionLimit : Nat := Nat.pow 2 31

/-- The size of a measure within the limit, and the arguments that are left. -/
def measured (limit : Nat) (measure : Measure) (arguments : List Value) :
    Except TemplateFault (Int × List Value) :=
  match measure, arguments with
  | .fixed size, arguments =>
      if size < limit then .ok (size, arguments) else .error .excessive
  | .argument, [] => .error .missing
  | .argument, value :: others =>
      match exactInteger? value with
      | none => .error (.unfit value)
      | some size =>
          if -(limit : Int) ≤ size && size < limit then .ok (size, others)
          else .error .outOfRange

/-- The width that a measure stands for; the lowest measure has no counterpart
above zero and stands for none. -/
def widthOf (size : Int) : Nat :=
  if size.natAbs < widthLimit then size.natAbs else 0

/-- The layout of a slot, and the arguments that are left.  A negative width stands
for a width to the left, and a negative precision for zero. -/
def Slot.layout (slot : Slot) (arguments : List Value) :
    Except TemplateFault (Layout × List Value) := do
  let (width, arguments) ← measured widthLimit slot.width arguments
  let (precision, arguments) ←
    match slot.precision with
    | some measure =>
        (measured precisionLimit measure arguments).map fun found =>
          (some found.1.toNat, found.2)
    | none => .ok (none, arguments)
  let sign :=
    if slot.flags.contains '+' then ['+']
    else if slot.flags.contains ' ' then [' ']
    else []
  .ok
    (⟨slot.flags.contains '-' || width < 0, slot.flags.contains '0',
      slot.flags.contains '#', sign, widthOf width, precision⟩, arguments)

/-- Fills text up to the width of its slot. -/
def fitted (layout : Layout) (text : List Char) : List Char :=
  let blanks := List.replicate (layout.width - text.length) ' '
  if layout.left then text ++ blanks else blanks ++ text

/-- A number's digits behind its sign and the mark of its base, filled up with
zeros where the slot asks for them. -/
def signed (layout : Layout) (negative : Bool) (mark digits : List Char) :
    List Char :=
  let front := (if negative then ['-'] else layout.sign) ++ mark
  if layout.zeros && !layout.left then
    front ++
      List.replicate (layout.width - (front.length + digits.length)) '0' ++
      digits
  else fitted layout (front ++ digits)

/-- At least as many digits as the precision says; beside them there has to be room
for a sign and a mark. -/
def lengthened (precision : Option Nat) (digits : List Char) :
    Except TemplateFault (List Char) :=
  let least := precision.getD 0
  if least + 3 < precisionLimit then
    .ok (List.replicate (least - digits.length) '0' ++ digits)
  else .error .outOfRange

/-- The integer part of a number, or the number that a boolean counts as. -/
def integerOf (value : Value) : Except TemplateFault Int :=
  match value with
  | .boolean b => .ok (if b then 1 else 0)
  | .number n =>
      match n.truncated with
      | .integer n => .ok n
      | .notANumber => .error .notANumber
      | .infinite => .error .outOfRange
  | other => .error (.unfit other)

def upperLetter (c : Char) : Char :=
  if 0x61 ≤ c.toNat && c.toNat ≤ 0x7a then Char.ofNat (c.toNat - 0x20) else c

/-- An integer in a base, behind the mark of the base where it is asked for. -/
def inBase (layout : Layout) (base : Nat) (mark : List Char) (value : Value) :
    Except TemplateFault (List Char) :=
  match exactInteger? value with
  | some n =>
      (lengthened layout.precision (Nat.toDigits base n.natAbs)).map
        (signed layout (n < 0) (if layout.marked then mark else []))
  | none => .error (.unfit value)

/-- A number as the double nearest to it, spelled with six decimals or digits
unless the precision says otherwise. -/
def spelled (layout : Layout) (spell : Nat → Nat → Spelling) (value : Value) :
    Except TemplateFault (List Char) :=
  match value.asNumber? with
  | none => .error (.unfit value)
  | some n =>
      match n.nearest? with
      | none => .error .outOfRange
      | some d =>
          let digits :=
            match d.extended with
            | .finite _ =>
                (spell (layout.precision.getD 6) d.magnitude).text layout.marked
            | .nan => ['n', 'a', 'n']
            | _ => ['i', 'n', 'f']
          .ok (signed layout (d.isNegative && !d.isNaN) [] digits)

/-- Beyond so many digits every double has only zeros. -/
def doubleDigits : Nat := 1100

/-- So many digits, at least one, without zeros at the end unless they are asked
for. -/
def generalSpelling (layout : Layout) (digits size : Nat) : Spelling :=
  if layout.marked then Spelling.general (max 1 digits) size
  else (Spelling.general (max 1 (min digits doubleDigits)) size).trimmed

/-- So many digits after the first one; a number of digits that is not counted any
more stands for none. -/
def scientificSpelling (digits size : Nat) : Spelling :=
  Spelling.scientific (if digits + 1 < precisionLimit then digits else 0) size

def character (value : Value) : Except TemplateFault (List Char) :=
  match value with
  | .text s => if s.length = 1 then .ok s.toList else .error (.unfit value)
  | other =>
      match exactInteger? other with
      | some n =>
          if 0 ≤ n && n < 0x110000 then .ok [Char.ofNat n.toNat]
          else .error .outOfRange
      | none => .error (.unfit other)

def filled (layout : Layout) (letter : Char) (value : Value) :
    Except TemplateFault (List Char) :=
  let cut (text : List Char) : List Char :=
    match layout.precision with
    | some most => text.take most
    | none => text
  match letter with
  | 's' => .ok (fitted layout (cut value.plain.toList))
  | 'r' => .ok (fitted layout (cut value.shown))
  | 'a' => .ok (fitted layout (cut (value.shown.flatMap asciiEscape)))
  | 'd' | 'i' | 'u' =>
      (integerOf value).bind fun n =>
        (lengthened layout.precision (Nat.toDigits 10 n.natAbs)).map
          (signed layout (n < 0) [])
  | 'x' => inBase layout 16 ['0', 'x'] value
  | 'X' => (inBase layout 16 ['0', 'x'] value).map (List.map upperLetter)
  | 'o' => inBase layout 8 ['0', 'o'] value
  | 'f' => spelled layout Spelling.fixed value
  | 'F' => (spelled layout Spelling.fixed value).map (List.map upperLetter)
  | 'e' => spelled layout scientificSpelling value
  | 'E' =>
      (spelled layout scientificSpelling value).map (List.map upperLetter)
  | 'g' => spelled layout (generalSpelling layout) value
  | 'G' =>
      (spelled layout (generalSpelling layout) value).map
        (List.map upperLetter)
  | 'c' => (character value).map (fitted layout)
  | _ => .error .unknownLetter

/-- The arguments that a slot can use: those that are left, or the one with the
slot's name. -/
def Source.arguments (named : Option Fields) (left : List Value) :
    Source → Except TemplateFault (List Value)
  | .next => .ok left
  | .named name =>
      match named with
      | none => .error .notNamed
      | some fields =>
          match Fields.get? fields name with
          | some value => .ok [value]
          | none => .error (.unknownName name)
  | .unclosed =>
      match named with
      | none => .error .notNamed
      | some _ => .error .unfinished

/-- The text of a slot, and the arguments that are left.  After a slot with a name
no argument is left for one without.  Whether the argument can be written at all
shows before its text is too long. -/
def Slot.fill (slot : Slot) (named : Option Fields) (left : List Value) :
    Except TemplateFault (List Char × List Value) := do
  let arguments ← slot.source.arguments named left
  let (layout, arguments) ← slot.layout arguments
  match slot.letter, arguments with
  | none, _ => .error .unfinished
  | some _, [] => .error .missing
  | some letter, value :: others =>
      if layout.width < tooWide then
        (filled layout letter value).map fun text => (text, others)
      else (filled { layout with width := 0 } letter value).bind fun _ =>
        .error .tooLong

/-- The text of what is left of a template; the fuel bounds the number of its
pieces. -/
def filledFrom (named : Option Fields) :
    Nat → List Char → List Value → Except TemplateFault (List Char)
  | 0, _, left | _, [], left =>
      if left.isEmpty || named.isSome then .ok [] else .error .unused
  | fuel + 1, '%' :: '%' :: rest, left =>
      (filledFrom named fuel rest left).map ('%' :: ·)
  | fuel + 1, '%' :: rest, left => do
      let (found, after) := slot rest
      let (text, left) ← found.fill named left
      (filledFrom named fuel after left).map (text ++ ·)
  | fuel + 1, c :: rest, left =>
      (filledFrom named fuel rest left).map (c :: ·)

def template (template : String) (arguments : List Value) :
    Except TemplateFault String :=
  let named :=
    match arguments with
    | [.record fields] => if fields.isEmpty then none else some fields
    | _ => none
  (filledFrom named template.length template.toList arguments).map
    String.ofList

end AccessControl.Text
