/-!
# Base64 for URLs

Three bytes are written as four characters of the alphabet for URLs, and one or
two bytes left at the end as two or three characters, without padding.  The
reader also takes the classic characters for the values 62 and 63, passes over
every character outside the alphabet, and stops at padding that completes a
group of four.
-/

namespace AccessControl.Base64

/-- The character code of a value below 64. -/
def character (value : Nat) : UInt8 :=
  if value < 26 then UInt8.ofNat (0x41 + value)
  else if value < 52 then UInt8.ofNat (0x61 + (value - 26))
  else if value < 62 then UInt8.ofNat (0x30 + (value - 52))
  else if value = 62 then 0x2d
  else 0x5f

def encode : List UInt8 → List UInt8
  | [] => []
  | [a] =>
      [character (a.toNat / 4), character (a.toNat % 4 * 16)]
  | [a, b] =>
      [character (a.toNat / 4), character (a.toNat % 4 * 16 + b.toNat / 16),
       character (b.toNat % 16 * 4)]
  | a :: b :: c :: rest =>
      character (a.toNat / 4) ::
      character (a.toNat % 4 * 16 + b.toNat / 16) ::
      character (b.toNat % 16 * 4 + c.toNat / 64) ::
      character (c.toNat % 64) :: encode rest

/-- The value of a character of either alphabet. -/
def value? (code : UInt8) : Option Nat :=
  let n := code.toNat
  if 0x41 ≤ n && n ≤ 0x5a then some (n - 0x41)
  else if 0x61 ≤ n && n ≤ 0x7a then some (n - 0x61 + 26)
  else if 0x30 ≤ n && n ≤ 0x39 then some (n - 0x30 + 52)
  else if n = 0x2b || n = 0x2d then some 62
  else if n = 0x2f || n = 0x5f then some 63
  else none

def padding : UInt8 := 0x3d

/-- Reads on after `place` characters of a group of four, whose bits not yet
written are `held`, and after `pads` padding signs in a row. -/
def decodeFrom (place held pads : Nat) : List UInt8 → Option (List UInt8)
  | [] => if place = 0 then some [] else none
  | code :: rest =>
      if code = padding then
        if place < 2 then decodeFrom place held pads rest
        else if 4 ≤ place + (pads + 1) then some []
        else decodeFrom place held (pads + 1) rest
      else
        match value? code with
        | none => decodeFrom place held pads rest
        | some value =>
            if place = 0 then decodeFrom 1 value 0 rest
            else if place = 1 then
              (decodeFrom 2 (value % 16) 0 rest).map
                (UInt8.ofNat (held * 4 + value / 16) :: ·)
            else if place = 2 then
              (decodeFrom 3 (value % 4) 0 rest).map
                (UInt8.ofNat (held * 16 + value / 4) :: ·)
            else
              (decodeFrom 0 0 0 rest).map
                (UInt8.ofNat (held * 64 + value) :: ·)

/-- Reads a segment after filling it up with padding to groups of four. -/
def decode? (codes : List UInt8) : Option (List UInt8) :=
  decodeFrom 0 0 0
    (codes ++ List.replicate ((4 - codes.length % 4) % 4) padding)

end AccessControl.Base64
