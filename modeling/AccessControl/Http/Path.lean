import AccessControl.Bytes.Hex

/-!
# Paths

The path that log records and the list of public paths go by is read off the
whole address.  There it begins with a slash unless it is empty, and the
characters that would end the path of an address or divide it are written as
percent signs and hexadecimal digits.  In an address that is sent back, so is
every character that addresses do not have.
-/

namespace AccessControl.Http

namespace Path

/-- A byte as percent sign and upper-case digits. -/
def percent (byte : UInt8) : List Char :=
  '%' :: (Hex.pair byte).map Char.toUpper

/-- A character as the percent signs of its bytes. -/
def percents (c : Char) : List Char :=
  (String.singleton c).toUTF8.toList.flatMap percent

def isDelimiter (c : Char) : Bool :=
  c = '?' || c = '#' || c = '\x5c'

/-- What stands before a requested path in an address: a slash, unless the path
begins with one or is empty. -/
def front (path : String) : List Char :=
  if path = "" || path.toList.head? = some '/' then [] else ['/']

/-- A requested path as it stands in an address. -/
def addressed (path : String) : List Char :=
  front path ++ path.toList.flatMap fun c =>
    if isDelimiter c then percents c else [c]

/-- Characters that an address is read without. -/
def isDropped (c : Char) : Bool :=
  c = '\t' || c = '\n' || c = '\r'

/-- The path of the address that a requested path belongs to. -/
def logged (path : String) : String :=
  String.ofList ((addressed path).filter fun c => !isDropped c)

/-- Whether a path ends in a text. -/
def endsIn (path ending : String) : Bool :=
  ending.toList.isSuffixOf path.toList

/-- The characters with a meaning in addresses. -/
def reserved : List Char := ":/%#?=@[]!$&'()*+,;".toList

/-- Letters, digits, a few signs, and the characters with a meaning. -/
def isPlain (c : Char) : Bool :=
  let n := c.toNat
  (0x41 ≤ n && n ≤ 0x5a) || (0x61 ≤ n && n ≤ 0x7a) ||
    (0x30 ≤ n && n ≤ 0x39) || c = '_' || c = '.' || c = '-' || c = '~' ||
    reserved.contains c

/-- The address of a path on a host. -/
def address (host path : String) : String :=
  let whole := ("http://" ++ host).toList ++ addressed path
  String.ofList (whole.flatMap fun c =>
    if isPlain c then [c] else percents c)

end Path

end AccessControl.Http
