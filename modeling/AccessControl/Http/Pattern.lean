import AccessControl.Bytes.Hex
import AccessControl.Text.Digit

/-!
# Path patterns

A pattern is a path with holes.  A hole is a name in braces, behind which a word
may say what fills it; without one a segment does.  A path fits when texts for
the holes make it equal to the pattern; each hole takes as much as it can, the
first one first, and a line feed at the end of the path does not count.
-/

namespace AccessControl.Http

inductive Filler where
  | segment
  /-- Anything on one line, even nothing. -/
  | anything
  | digits
  | decimal
  /-- Five groups of hexadecimal digits, with or without dashes between them. -/
  | identifier
deriving DecidableEq, Repr

inductive Piece where
  | plain (c : Char)
  | hole (name : String) (filler : Filler)
deriving DecidableEq, Repr

abbrev Pattern := List Piece

/-- The texts that fill the holes of a pattern, by name. -/
abbrev Holes := List (String × String)

def Holes.text (holes : Holes) (name : String) : String :=
  (holes.lookup name).getD ""

namespace Filler

/-- The words that say what fills a hole. -/
def words : List (String × Filler) :=
  [("str", segment), ("path", anything), ("int", digits), ("float", decimal),
   ("uuid", identifier)]

/-- The lengths of the parts in front whose characters have the property, the
longest first and none empty. -/
def leading (property : Char → Bool) (text : List Char) : List Nat :=
  (List.range (text.takeWhile property).length).reverse.map (· + 1)

/-- The lengths of so many digits with a point and more digits behind them. -/
def withFraction (whole : Nat) (text : List Char) : List Nat :=
  match text.drop whole with
  | '.' :: rest => (leading Text.isDigit rest).map fun more => whole + 1 + more
  | _ => []

/-- The length of a dash, if there is one, and so many hexadecimal digits. -/
def group? (count : Nat) (text : List Char) : Option Nat :=
  let dash := if text.head? = some '-' then 1 else 0
  let found := (text.drop dash).take count
  if found.length = count && found.all fun c => (Hex.value? c).isSome then
    some (dash + count)
  else none

/-- The length of the groups of hexadecimal digits in front. -/
def groups? : List Nat → List Char → Option Nat
  | [], _ => some 0
  | count :: counts, text => do
      let first ← group? count text
      let others ← groups? counts (text.drop first)
      some (first + others)

/-- How many characters in front of a text may fill the hole, the preferred number
first. -/
def lengths (filler : Filler) (text : List Char) : List Nat :=
  match filler with
  | segment => leading (· != '/') text
  | anything => leading (· != '\n') text ++ [0]
  | digits => leading Text.isDigit text
  | decimal =>
      (leading Text.isDigit text).flatMap fun whole =>
        withFraction whole text ++ [whole]
  | identifier =>
      if text.head? = some '-' then []
      else (groups? [8, 4, 4, 4, 12] text).toList

end Filler

namespace Pattern

/-- Why a text is no pattern. -/
inductive Fault where
  /-- No filler has this word. -/
  | unknownFiller (word : String)
  /-- Two holes have one name. -/
  | repeatedName
deriving DecidableEq, Repr

/-- The characters that names begin with. -/
def beginsName (c : Char) : Bool :=
  let n := c.toNat
  (0x41 ≤ n && n ≤ 0x5a) || (0x61 ≤ n && n ≤ 0x7a) || c = '_'

/-- The name in front of a text. -/
def name? (text : List Char) : Option (String × List Char) :=
  match text with
  | c :: _ =>
      if beginsName c then
        let inName (d : Char) : Bool := beginsName d || Text.isDigit d
        some (String.ofList (text.takeWhile inName), text.dropWhile inName)
      else none
  | [] => none

/-- The name and the word of the hole whose brace has been passed. -/
def hole? (text : List Char) : Option (String × String × List Char) := do
  let (name, rest) ← name? text
  match rest with
  | '\x7d' :: after => some (name, "str", after)
  | ':' :: typed =>
      match ← name? typed with
      | (word, '\x7d' :: after) => some (name, word, after)
      | _ => none
  | _ => none

/-- The pieces of a text; the fuel bounds their number. -/
def pieces : Nat → List Char → Except Fault Pattern
  | 0, _ | _, [] => .ok []
  | fuel + 1, c :: rest =>
      match if c = '\x7b' then hole? rest else none with
      | some (name, word, after) =>
          match Filler.words.lookup word with
          | some filler =>
              (pieces fuel after).map fun others => .hole name filler :: others
          | none => .error (.unknownFiller word)
      | none => (pieces fuel rest).map fun others => .plain c :: others

def names (pattern : Pattern) : List String :=
  pattern.filterMap fun piece =>
    match piece with
    | .hole name _ => some name
    | .plain _ => none

/-- The pattern that a text spells. -/
def ofText (text : String) : Except Fault Pattern := do
  let pattern ← pieces text.length text.toList
  if (names pattern).eraseDups.length = (names pattern).length then .ok pattern
  else .error .repeatedName

/-- The texts for the holes that make a path equal to the pattern. -/
def fit? : Pattern → List Char → Option Holes
  | [], rest => if rest = [] || rest = ['\n'] then some [] else none
  | .plain _ :: _, [] => none
  | .plain c :: pattern, d :: rest =>
      if c = d then fit? pattern rest else none
  | .hole name filler :: pattern, text =>
      (filler.lengths text).findSome? fun length =>
        (fit? pattern (text.drop length)).map fun holes =>
          (name, String.ofList (text.take length)) :: holes

end Pattern

end AccessControl.Http
