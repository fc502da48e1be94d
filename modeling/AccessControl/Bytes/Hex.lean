/-!
# Hexadecimal digits

A byte is written as two lower-case digits; digits of either case are read.
Main statement: reading what was written gives the bytes back.
-/

namespace AccessControl.Hex

/-- The digit of a value below sixteen. -/
def digit (value : Nat) : Char :=
  if value < 10 then Char.ofNat (0x30 + value) else Char.ofNat (0x57 + value)

/-- The value of a digit of either case. -/
def value? (c : Char) : Option Nat :=
  let n := c.toNat
  if 0x30 ≤ n && n ≤ 0x39 then some (n - 0x30)
  else if 0x61 ≤ n && n ≤ 0x66 then some (n - 0x57)
  else if 0x41 ≤ n && n ≤ 0x46 then some (n - 0x37)
  else none

/-- The two digits of a byte, the high half first. -/
def pair (byte : UInt8) : List Char :=
  [digit (byte.toNat / 16), digit (byte.toNat % 16)]

def encode (bytes : List UInt8) : List Char :=
  bytes.flatMap pair

/-- Reads two digits for each byte. -/
def decode? : List Char → Option (List UInt8)
  | [] => some []
  | [_] => none
  | high :: low :: rest =>
      match value? high, value? low, decode? rest with
      | some h, some l, some bytes => some (UInt8.ofNat (16 * h + l) :: bytes)
      | _, _, _ => none

theorem value?_digit {value : Nat} (small : value < 16) :
    value? (digit value) = some value := by
  have every : ∀ v : Fin 16, value? (digit v) = some v.val := by decide
  exact every ⟨value, small⟩

theorem decode?_encode (bytes : List UInt8) :
    decode? (encode bytes) = some bytes := by
  induction bytes with
  | nil => rfl
  | cons byte rest inductionHypothesis =>
      have high : byte.toNat / 16 < 16 := by
        have := byte.toNat_lt
        omega
      have low : byte.toNat % 16 < 16 := Nat.mod_lt _ (by decide)
      have whole : 16 * (byte.toNat / 16) + byte.toNat % 16 = byte.toNat :=
        Nat.div_add_mod _ _
      rw [encode] at inductionHypothesis
      simp [encode, pair, decode?, value?_digit high, value?_digit low,
        inductionHypothesis, whole]

theorem length_encode (bytes : List UInt8) :
    (encode bytes).length = 2 * bytes.length := by
  induction bytes with
  | nil => rfl
  | cons byte rest inductionHypothesis =>
      rw [encode] at inductionHypothesis
      simp [encode, pair, inductionHypothesis]
      omega

theorem length_of_decode? {digits : List Char} {bytes : List UInt8}
    (read : decode? digits = some bytes) :
    digits.length = 2 * bytes.length := by
  fun_induction decode? digits generalizing bytes with
  | case1 => simp_all
  | case2 => simp at read
  | case3 high low rest h l tail tailRead _ _ inductionHypothesis =>
      have := inductionHypothesis tailRead
      simp only [Option.some.injEq] at read
      subst read
      simp
      omega
  | case4 => simp at read

end AccessControl.Hex
