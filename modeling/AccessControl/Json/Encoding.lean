import AccessControl.Json.Reader

/-!
# Encodings of JSON

JSON comes as bytes in one of five encodings.  Its first character is an ASCII
one, so the zeros among the first bytes tell how many bytes a code unit has and
which of them comes first.
-/

namespace AccessControl.Json

/-- How bytes make up the code units of a text. -/
inductive Encoding where
  | single
  | pairs (highFirst : Bool)
  | quads (highFirst : Bool)
deriving DecidableEq, Repr

namespace Encoding

/-- The encoding of bytes, by the zeros at their beginning. -/
def ofBytes : List UInt8 → Encoding
  | a :: b :: c :: d :: _ =>
      if a = 0 then if b = 0 then quads true else pairs true
      else if b = 0 then
        if c = 0 && d = 0 then quads false else pairs false
      else single
  | [a, b] =>
      if a = 0 then pairs true else if b = 0 then pairs false else single
  | _ => single

/-- The number that bytes stand for, the lowest of them first. -/
def lowFirst : List UInt8 → Nat
  | [] => 0
  | byte :: rest => byte.toNat + 256 * lowFirst rest

/-- The number that bytes stand for. -/
def unit (highFirst : Bool) (bytes : List UInt8) : Nat :=
  lowFirst (if highFirst then bytes.reverse else bytes)

/-- The units of two bytes. -/
def pairUnits? (highFirst : Bool) : List UInt8 → Option (List Nat)
  | [] => some []
  | [_] => none
  | a :: b :: rest =>
      (pairUnits? highFirst rest).map (unit highFirst [a, b] :: ·)

def lastCodePoint : Nat := 0x10ffff

/-- The units of four bytes, each a code point. -/
def quadUnits? (highFirst : Bool) : List UInt8 → Option (List Nat)
  | [] => some []
  | a :: b :: c :: d :: rest =>
      let point := unit highFirst [a, b, c, d]
      if point ≤ lastCodePoint then
        (quadUnits? highFirst rest).map (point :: ·)
      else none
  | _ => none

/-- The text without a byte order mark. -/
def withoutMark (text : String) : String :=
  match text.toList with
  | '\ufeff' :: rest => String.ofList rest
  | _ => text

/-- The text that bytes make up, when they do. -/
def decode? (encoding : Encoding) (bytes : List UInt8) : Option String :=
  let joined (units : List Nat) : String := String.ofList (joinUnits units)
  match encoding with
  | single => (String.fromUTF8? ⟨bytes.toArray⟩).map withoutMark
  | pairs highFirst => (pairUnits? highFirst bytes).map joined
  | quads highFirst => (quadUnits? highFirst bytes).map joined

end Encoding

/-- The text of JSON that comes as bytes. -/
def textOf? (bytes : List UInt8) : Option String :=
  (Encoding.ofBytes bytes).decode? bytes

end AccessControl.Json
