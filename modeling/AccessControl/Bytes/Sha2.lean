/-!
# Secure hash algorithms

The second family of secure hash algorithms: 32-bit words and 64 rounds, or
64-bit words and 80 rounds.  The constants are the leading bits of the
fractional parts of roots of the first primes, and are computed here from that
rule.

The hash of a message under a secret key comes from them: the key, filled up to a
block, is masked in two ways and hashed before the message and before that hash.
-/

namespace AccessControl.Sha2

/-- The greatest `r` below 2 ^ bits · (root + 1) with r ^ degree ≤ n, found from the
highest bit down. -/
def rootFrom (degree n : Nat) : Nat → Nat → Nat
  | 0, root => root
  | bits + 1, root =>
      let candidate := root + Nat.pow 2 bits
      if Nat.pow candidate degree ≤ n then rootFrom degree n bits candidate
      else rootFrom degree n bits root

/-- The first `width` bits of the fractional part of the root of a number below
2 ^ 16. -/
def rootFraction (degree width n : Nat) : BitVec width :=
  BitVec.ofNat width
    (rootFrom degree (n * Nat.pow 2 (degree * width)) (width + 16) 0)

def isPrime (n : Nat) : Bool :=
  2 ≤ n && (List.range n).all fun divisor => divisor < 2 || n % divisor != 0

/-- The primes below 410, which are eighty. -/
def primes : List Nat := (List.range 410).filter isPrime

structure Amounts where
  first : Nat
  second : Nat
  third : Nat

/-- What distinguishes a member of the family: the size of a word, the rotations of
the round and of the schedule, the words it starts from, the constants of its
rounds, and how many words of the result are kept. -/
structure Member where
  width : Nat
  roundA : Amounts
  roundE : Amounts
  scheduleLow : Amounts
  scheduleHigh : Amounts
  start : List (BitVec width)
  constants : List (BitVec width)
  kept : Nat

/-- 32-bit words, eight of them kept. -/
def sha256 : Member :=
  { width := 32
    roundA := ⟨2, 13, 22⟩
    roundE := ⟨6, 11, 25⟩
    scheduleLow := ⟨7, 18, 3⟩
    scheduleHigh := ⟨17, 19, 10⟩
    start := (primes.take 8).map (rootFraction 2 32)
    constants := (primes.take 64).map (rootFraction 3 32)
    kept := 8 }

/-- 64-bit words, started from the first eight primes, all of them kept. -/
def sha512 : Member :=
  { width := 64
    roundA := ⟨28, 34, 39⟩
    roundE := ⟨14, 18, 41⟩
    scheduleLow := ⟨1, 8, 7⟩
    scheduleHigh := ⟨19, 61, 6⟩
    start := (primes.take 8).map (rootFraction 2 64)
    constants := primes.map (rootFraction 3 64)
    kept := 8 }

/-- 64-bit words, started from the next eight primes, six of them kept. -/
def sha384 : Member :=
  { sha512 with
    start := ((primes.drop 8).take 8).map (rootFraction 2 64)
    kept := 6 }

namespace Member

def wordBytes (member : Member) : Nat := member.width / 8

def blockBytes (member : Member) : Nat := 16 * member.wordBytes

end Member

/-- The bytes of a number, the highest first. -/
def bigEndian (count n : Nat) : List UInt8 :=
  (List.range count).reverse.map fun place => UInt8.ofNat (n / Nat.pow 256 place)

/-- The number whose bytes these are, the highest first. -/
def ofBigEndian (bytes : List UInt8) : Nat :=
  bytes.foldl (fun n byte => 256 * n + byte.toNat) 0

/-- Pieces of `size` items; the fuel bounds their number. -/
def pieces {α : Type} (size : Nat) : Nat → List α → List (List α)
  | 0, _ => []
  | _ + 1, [] => []
  | fuel + 1, items => items.take size :: pieces size fuel (items.drop size)

/-- The message with a one bit after it, zeros, and its length in bits, in whole
blocks. -/
def padded (member : Member) (message : List UInt8) : List UInt8 :=
  let block := member.blockBytes
  let lengthBytes := 2 * member.wordBytes
  let used := (message.length + 1 + lengthBytes) % block
  message ++ 0x80 :: List.replicate ((block - used) % block) 0 ++
    bigEndian lengthBytes (8 * message.length)

def words (member : Member) (block : List UInt8) : List (BitVec member.width) :=
  (pieces member.wordBytes 16 block).map fun bytes =>
    BitVec.ofNat member.width (ofBigEndian bytes)

/-- The blocks of the padded message, in words. -/
def blocks (member : Member) (message : List UInt8) :
    List (List (BitVec member.width)) :=
  let bytes := padded member message
  (pieces member.blockBytes bytes.length bytes).map (words member)

/-- Three rotations added without carry. -/
def rotations {width : Nat} (amounts : Amounts) (x : BitVec width) :
    BitVec width :=
  x.rotateRight amounts.first ^^^ x.rotateRight amounts.second ^^^
    x.rotateRight amounts.third

/-- Two rotations and a shift added without carry. -/
def shifts {width : Nat} (amounts : Amounts) (x : BitVec width) :
    BitVec width :=
  x.rotateRight amounts.first ^^^ x.rotateRight amounts.second ^^^
    x >>> amounts.third

/-- The bits of `y` where `x` has ones, and those of `z` elsewhere. -/
def choose {width : Nat} (x y z : BitVec width) : BitVec width :=
  (x &&& y) ^^^ (~~~x &&& z)

/-- The bits that at least two of the words have. -/
def majority {width : Nat} (x y z : BitVec width) : BitVec width :=
  (x &&& y) ^^^ (x &&& z) ^^^ (y &&& z)

structure Registers (width : Nat) where
  a : BitVec width
  b : BitVec width
  c : BitVec width
  d : BitVec width
  e : BitVec width
  f : BitVec width
  g : BitVec width
  h : BitVec width

namespace Registers

def ofList {width : Nat} : List (BitVec width) → Registers width
  | [a, b, c, d, e, f, g, h] => ⟨a, b, c, d, e, f, g, h⟩
  | _ => ⟨0, 0, 0, 0, 0, 0, 0, 0⟩

def toList {width : Nat} (r : Registers width) : List (BitVec width) :=
  [r.a, r.b, r.c, r.d, r.e, r.f, r.g, r.h]

end Registers

/-- One round with its constant and its word of the schedule. -/
def round (member : Member) (r : Registers member.width)
    (constant word : BitVec member.width) : Registers member.width :=
  let first :=
    r.h + rotations member.roundE r.e + choose r.e r.f r.g + constant + word
  let second := rotations member.roundA r.a + majority r.a r.b r.c
  ⟨first + second, r.a, r.b, r.c, r.d + first, r.e, r.f, r.g⟩

/-- The word of the schedule that follows sixteen others. -/
def nextWord (member : Member) (window : List (BitVec member.width)) :
    BitVec member.width :=
  shifts member.scheduleHigh (window.getD 14 0) + window.getD 9 0 +
    shifts member.scheduleLow (window.getD 1 0) + window.getD 0 0

/-- All rounds; the window holds the next sixteen words of the schedule. -/
def rounds (member : Member) :
    List (BitVec member.width) → List (BitVec member.width) →
      Registers member.width → Registers member.width
  | [], _, r => r
  | constant :: rest, window, r =>
      rounds member rest (window.drop 1 ++ [nextWord member window])
        (round member r constant (window.getD 0 0))

/-- Works a block into the words of the hash. -/
def compress (member : Member) (hash block : List (BitVec member.width)) :
    List (BitVec member.width) :=
  let worked := rounds member member.constants block (Registers.ofList hash)
  List.zipWith (· + ·) hash worked.toList

def digest (member : Member) (message : List UInt8) : List UInt8 :=
  let hash := (blocks member message).foldl (compress member) member.start
  (hash.take member.kept).flatMap fun word =>
    bigEndian member.wordBytes word.toNat

end AccessControl.Sha2

namespace AccessControl.Hmac

/-- The key in one block; a longer key is hashed first. -/
def blockKey (member : Sha2.Member) (key : List UInt8) : List UInt8 :=
  let short :=
    if member.blockBytes < key.length then Sha2.digest member key else key
  short ++ List.replicate (member.blockBytes - short.length) 0

/-- The key with every byte masked. -/
def masked (mask : UInt8) (key : List UInt8) : List UInt8 :=
  key.map (· ^^^ mask)

/-- The hash of the message under the key. -/
def sign (member : Sha2.Member) (key message : List UInt8) : List UInt8 :=
  let block := blockKey member key
  let inner := Sha2.digest member (masked 0x36 block ++ message)
  Sha2.digest member (masked 0x5c block ++ inner)

end AccessControl.Hmac
