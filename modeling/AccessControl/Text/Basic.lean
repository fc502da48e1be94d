/-!
# Blanks, lower case and parts

Which characters may be cut off the ends of a text, the lower case of the
characters that have one among the letters a to z, and whether a text stands
somewhere in another one.  `isBlank` is the property the service uses for tenant
names, bearer tokens and digit texts; `isSpace` is the narrower White_Space
property, which leaves out the four separators U+001C to U+001F.
-/

namespace AccessControl.Text

/-- The White_Space property together with the four information separators
U+001C to U+001F. -/
def isBlank (c : Char) : Bool :=
  let n := c.toNat
  (0x09 ≤ n && n ≤ 0x0d) || (0x1c ≤ n && n ≤ 0x20) || n == 0x85 ||
    n == 0xa0 || n == 0x1680 || (0x2000 ≤ n && n ≤ 0x200a) ||
    n == 0x2028 || n == 0x2029 || n == 0x202f || n == 0x205f || n == 0x3000

/-- The White_Space property. -/
def isSpace (c : Char) : Bool :=
  isBlank c && !(0x1c ≤ c.toNat && c.toNat ≤ 0x1f)

/-- Cuts the characters with the property off both ends. -/
def trim (cut : Char → Bool) (text : List Char) : List Char :=
  ((text.dropWhile cut).reverse.dropWhile cut).reverse

/-- The lower case of a character, as far as it touches the letters a to z; the
Kelvin sign is a capital K and the dotted capital I becomes two characters. -/
def lower (c : Char) : List Char :=
  if 0x41 ≤ c.toNat && c.toNat ≤ 0x5a then [Char.ofNat (c.toNat + 0x20)]
  else if c = '\u212a' then ['k']
  else if c = '\u0130' then ['i', '\u0307']
  else [c]

def lowered (text : String) : String :=
  String.ofList (text.toList.flatMap lower)

/-- Whether the part occurs in a text, its characters side by side. -/
def occursIn (part : List Char) : List Char → Bool
  | [] => part.isEmpty
  | c :: rest => part.isPrefixOf (c :: rest) || occursIn part rest

end AccessControl.Text
