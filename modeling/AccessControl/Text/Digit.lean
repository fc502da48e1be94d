import AccessControl.Text.Basic

/-!
# Decimal digits of every script

The characters with a decimal digit value stand in runs of ten, from the zero
of a script to its nine.
-/

namespace AccessControl.Text

/-- The code points of the zeros: every character with a decimal digit value
is one of these or one of the nine code points after it. -/
def digitZeros : List Nat :=
  [0x30, 0x660, 0x6f0, 0x7c0, 0x966, 0x9e6, 0xa66, 0xae6, 0xb66, 0xbe6,
   0xc66, 0xce6, 0xd66, 0xde6, 0xe50, 0xed0, 0xf20, 0x1040, 0x1090, 0x17e0,
   0x1810, 0x1946, 0x19d0, 0x1a80, 0x1a90, 0x1b50, 0x1bb0, 0x1c40, 0x1c50,
   0xa620, 0xa8d0, 0xa900, 0xa9d0, 0xa9f0, 0xaa50, 0xabf0, 0xff10, 0x104a0,
   0x10d30, 0x11066, 0x110f0, 0x11136, 0x111d0, 0x112f0, 0x11450, 0x114d0,
   0x11650, 0x116c0, 0x11730, 0x118e0, 0x11950, 0x11c50, 0x11d50, 0x11da0,
   0x16a60, 0x16ac0, 0x16b50, 0x1d7ce, 0x1d7d8, 0x1d7e2, 0x1d7ec, 0x1d7f6,
   0x1e140, 0x1e2f0, 0x1e950, 0x1fbf0]

/-- The value of a decimal digit of any script. -/
def digitValue? (c : Char) : Option Nat :=
  (digitZeros.find? fun base => base ≤ c.toNat && c.toNat < base + 10).map
    fun base => c.toNat - base

def isDigit (c : Char) : Bool :=
  0x30 ≤ c.toNat && c.toNat ≤ 0x39

def ofDigits (digits : List Char) : Nat :=
  digits.foldl (fun value c => 10 * value + (c.toNat - 0x30)) 0

/-- No text of more digits than these is read as an integer. -/
def mostDigits : Nat := 4300

/-- Digits, single underscores between them, and nothing else. -/
def underscored? : List Char → Option (List Char)
  | [] => none
  | [c] => if isDigit c then some [c] else none
  | c :: d :: rest =>
      if isDigit c then
        if d = '_' then (underscored? rest).map (c :: ·)
        else (underscored? (d :: rest)).map (c :: ·)
      else none

/-- The number that digits with underscores between them denote, when they are not
too many. -/
def underscoredNumber? (text : List Char) : Option Nat := do
  let digits ← underscored? text
  if digits.length ≤ mostDigits then some (ofDigits digits) else none

/-- The integer that a text denotes: white space around it is ignored, a sign may
stand in front, decimal digits of any script count, and single underscores
may stand between digits. -/
def integer? (text : List Char) : Option Int :=
  let plain := text.map fun c =>
    match digitValue? c with
    | some value => Char.ofNat (0x30 + value)
    | none => c
  match trim isSpace plain with
  | '-' :: rest => (underscoredNumber? rest).map fun size => -(size : Int)
  | '+' :: rest => (underscoredNumber? rest).map fun size => (size : Int)
  | rest => (underscoredNumber? rest).map fun size => (size : Int)

end AccessControl.Text
