import AccessControl.Identity
import AccessControl.Proofs.Operation
import AccessControl.Proofs.Segment

/-!
# The texts that name an identity

A text names an identity when it is 24 hexadecimal digits of either case or has twelve
bytes, and it is never both.  The digits are read as the identity that is written with
them in lower case, the bytes are the identity: `identified_exactly`.
-/

namespace AccessControl

namespace Hex

/-- The digits that are read. -/
def alphabet : List Char :=
  "0123456789abcdefABCDEF".toList

/-- The digits in which bytes are written, each at the place of its value. -/
def lowerDigits : List Char :=
  "0123456789abcdef".toList

theorem getElem?_lowerDigits {value : Nat} (small : value < 16) :
    lowerDigits[value]? = some (digit value) := by
  have every : ∀ v : Fin 16, lowerDigits[v.val]? = some (digit v) := by
    decide
  exact every ⟨value, small⟩

theorem map_encode (bytes : List UInt8) :
    (encode bytes).map some =
      bytes.flatMap fun byte =>
        [lowerDigits[byte.toNat / 16]?, lowerDigits[byte.toNat % 16]?] := by
  rw [encode, List.map_flatMap]
  refine congrArg bytes.flatMap (funext fun byte => ?_)
  have high : byte.toNat / 16 < 16 := by
    have := byte.toNat_lt
    omega
  have low : byte.toNat % 16 < 16 := Nat.mod_lt _ (by decide)
  rw [getElem?_lowerDigits high, getElem?_lowerDigits low]
  rfl

theorem toLower_eq_self {c : Char} (beyond : 128 ≤ c.toNat) :
    c.toLower = c := by
  unfold Char.toLower
  split
  · rename_i capital
    have atMost : c.toNat ≤ 'Z'.toNat := capital.2
    have last : 'Z'.toNat = 90 := rfl
    omega
  · rfl

theorem value?_eq_none {c : Char} (beyond : 128 ≤ c.toNat) :
    value? c = none := by
  simp only [value?, Bool.and_eq_true, decide_eq_true_eq]
  rw [if_neg (by omega), if_neg (by omega), if_neg (by omega)]

theorem ascii_of_value?
    {c : Char} {value : Nat} (read : value? c = some value) :
    c.toNat < 128 := by
  by_contra beyond
  rw [value?_eq_none (Nat.le_of_not_lt beyond)] at read
  cases read

/-- Beyond these, no character is a digit or has another lower case, so that facts of
digits are decided for each of them. -/
theorem exists_ofNat_of_ascii {c : Char} (ascii : c.toNat < 128) :
    ∃ n : Fin 128, c = Char.ofNat n :=
  ⟨⟨c.toNat, ascii⟩, (Char.ofNat_toNat c).symm⟩

theorem value?_toLower (c : Char) : value? c.toLower = value? c := by
  by_cases ascii : c.toNat < 128
  · have every :
        ∀ n : Fin 128,
          value? (Char.ofNat n).toLower = value? (Char.ofNat n) := by
      decide
    obtain ⟨n, rfl⟩ := exists_ofNat_of_ascii ascii
    exact every n
  · rw [toLower_eq_self (Nat.le_of_not_lt ascii)]

theorem digit_of_value?
    {c : Char} {value : Nat} (read : value? c = some value) :
    value < 16 ∧ digit value = c.toLower := by
  have every :
      ∀ n : Fin 128, ∀ value ∈ value? (Char.ofNat n),
        value < 16 ∧ digit value = (Char.ofNat n).toLower := by
    decide
  obtain ⟨n, rfl⟩ := exists_ofNat_of_ascii (ascii_of_value? read)
  exact every n value read

theorem exists_value?_iff {c : Char} :
    (∃ value, value? c = some value) ↔ c ∈ alphabet := by
  constructor
  · rintro ⟨value, read⟩
    have every :
        ∀ n : Fin 128, ∀ value ∈ value? (Char.ofNat n),
          Char.ofNat n ∈ alphabet := by
      decide
    obtain ⟨n, rfl⟩ := exists_ofNat_of_ascii (ascii_of_value? read)
    exact every n value read
  · intro member
    have every : (alphabet.all fun c => (value? c).isSome) = true := by
      decide
    exact
      Option.isSome_iff_exists.mp (List.all_eq_true.mp every c member)

/-- A byte is written with the digits of its halves. -/
theorem pair_ofNat {high low : Nat} (highSmall : high < 16) (lowSmall : low < 16) :
    pair (UInt8.ofNat (16 * high + low)) = [digit high, digit low] := by
  have whole : (UInt8.ofNat (16 * high + low)).toNat = 16 * high + low := by
    rw [UInt8.toNat_ofNat']
    omega
  have highHalf : (16 * high + low) / 16 = high := by
    omega
  have lowHalf : (16 * high + low) % 16 = low := by
    omega
  rw [pair, whole, highHalf, lowHalf]

theorem decode?_toLower (digits : List Char) :
    decode? (digits.map Char.toLower) = decode? digits := by
  fun_induction decode? digits with
  | case1 =>
      rfl
  | case2 =>
      rfl
  | case3 high low rest h l bytes readRest readLow readHigh inductionHypothesis =>
      simp only [List.map_cons, decode?, value?_toLower, readHigh, readLow,
        inductionHypothesis, readRest]
  | case4 high low rest unread inductionHypothesis =>
      simp only [List.map_cons, decode?, value?_toLower, inductionHypothesis]

theorem encode_of_decode?
    {digits : List Char} {bytes : List UInt8}
    (read : decode? digits = some bytes) :
    digits.map Char.toLower = encode bytes := by
  fun_induction decode? digits generalizing bytes with
  | case1 =>
      cases read
      rfl
  | case2 =>
      cases read
  | case3 high low rest h l others readRest readLow readHigh inductionHypothesis =>
      cases read
      obtain ⟨highSmall, highDigit⟩ := digit_of_value? readHigh
      obtain ⟨lowSmall, lowDigit⟩ := digit_of_value? readLow
      have later := inductionHypothesis readRest
      rw [encode] at later
      rw [encode, List.flatMap_cons, pair_ofNat highSmall lowSmall, ← later,
        highDigit, lowDigit]
      rfl
  | case4 =>
      cases read

/-- Reading accepts just what is written, in either case. -/
theorem decode?_eq_some_iff {digits : List Char} {bytes : List UInt8} :
    decode? digits = some bytes ↔ digits.map Char.toLower = encode bytes := by
  constructor
  · exact encode_of_decode?
  · intro written
    rw [← decode?_toLower, written, decode?_encode]

theorem exists_decode?_iff {digits : List Char} :
    (∃ bytes, decode? digits = some bytes) ↔
      digits.length % 2 = 0 ∧ ∀ c ∈ digits, c ∈ alphabet := by
  fun_induction decode? digits with
  | case1 =>
      simp
  | case2 =>
      simp
  | case3 high low rest h l bytes readRest readLow readHigh inductionHypothesis =>
      have highDigit := exists_value?_iff.mp ⟨h, readHigh⟩
      have lowDigit := exists_value?_iff.mp ⟨l, readLow⟩
      obtain ⟨even, digits⟩ := inductionHypothesis.mp ⟨bytes, readRest⟩
      simp only [List.length_cons, List.forall_mem_cons]
      exact ⟨fun _ => ⟨by omega, highDigit, lowDigit, digits⟩, fun _ => ⟨_, rfl⟩⟩
  | case4 high low rest unread inductionHypothesis =>
      simp only [List.length_cons, List.forall_mem_cons, reduceCtorEq,
        exists_false, false_iff]
      rintro ⟨even, highDigit, lowDigit, digits⟩
      obtain ⟨h, readHigh⟩ := exists_value?_iff.mpr highDigit
      obtain ⟨l, readLow⟩ := exists_value?_iff.mpr lowDigit
      obtain ⟨bytes, readRest⟩ :=
        inductionHypothesis.mpr ⟨by omega, digits⟩
      exact unread h l bytes readHigh readLow readRest

end Hex

/-! ## Texts of 24 digits and of twelve bytes -/

namespace ObjectId

/-- 24 hexadecimal digits of either case. -/
def IsHex (text : String) : Prop :=
  text.length = 24 ∧ ∀ c ∈ text.toList, c ∈ Hex.alphabet

instance (text : String) : Decidable (IsHex text) :=
  inferInstanceAs (Decidable (_ ∧ _))

theorem ofHex?_eq_some_iff {text : String} {id : ObjectId} :
    ofHex? text = some id ↔
      text.toList.map Char.toLower = id.hex.toList := by
  rw [ofHex?, Option.bind_eq_some_iff, hex, String.toList_ofList,
    ← Hex.decode?_eq_some_iff]
  constructor
  · rintro ⟨bytes, read, named⟩
    rw [ofBytes?_eq_some_iff.mp named]
    exact read
  · intro read
    exact ⟨id.bytes, read, ofBytes?_eq_some_iff.mpr rfl⟩

theorem length_toList_hex (id : ObjectId) : id.hex.toList.length = 24 := by
  rw [hex, String.toList_ofList, Hex.length_encode, id.size_eq]

theorem exists_ofHex?_iff {text : String} :
    (∃ id, ofHex? text = some id) ↔ IsHex text := by
  constructor
  · rintro ⟨id, read⟩
    have written := ofHex?_eq_some_iff.mp read
    have size := congrArg List.length written
    rw [length_toList_hex, List.length_map, String.length_toList] at size
    rw [hex, String.toList_ofList, ← Hex.decode?_eq_some_iff] at written
    exact ⟨size, (Hex.exists_decode?_iff.mp ⟨_, written⟩).2⟩
  · rintro ⟨size, digits⟩
    rw [← String.length_toList] at size
    obtain ⟨bytes, read⟩ :=
      Hex.exists_decode?_iff.mpr ⟨by rw [size], digits⟩
    have half := Hex.length_of_decode? read
    rw [ofHex?, read]
    exact ⟨⟨bytes, by omega⟩, ofBytes?_eq_some_iff.mpr rfl⟩

theorem length_toList_toUTF8 (text : String) :
    text.toUTF8.toList.length = text.utf8ByteSize := by
  rw [Token.toList_eq, Array.length_toList]
  rfl

theorem length_le_utf8ByteSize (text : String) :
    text.length ≤ text.utf8ByteSize := by
  induction text using String.push_induction with
  | empty =>
      exact Nat.le_refl 0
  | push front c inductionHypothesis =>
      have filled := c.utf8Size_pos
      rw [String.length_push, String.utf8ByteSize_push]
      omega

/-- 24 digits are more than twelve bytes. -/
theorem IsHex.utf8ByteSize_ne {text : String} (digits : IsHex text) :
    text.utf8ByteSize ≠ 12 := by
  have size := digits.1
  have within := length_le_utf8ByteSize text
  omega

theorem ofText?_eq_some_iff {text : String} {id : ObjectId} :
    ofText? text = some id ↔
      (IsHex text ∧ text.toList.map Char.toLower = id.hex.toList) ∨
        (text.utf8ByteSize = 12 ∧ text.toUTF8.toList = id.bytes) := by
  unfold ofText?
  cases read : ofHex? text with
  | some other =>
      have digits := exists_ofHex?_iff.mp ⟨other, read⟩
      simp only [digits, digits.utf8ByteSize_ne, true_and, false_and, or_false]
      rw [← ofHex?_eq_some_iff, read]
  | none =>
      have undigited : ¬ IsHex text := by
        rw [← exists_ofHex?_iff, read]
        simp
      simp only [undigited, false_and, false_or, ofBytes?_eq_some_iff]
      constructor
      · intro same
        rw [← length_toList_toUTF8, ← same]
        exact ⟨id.size_eq, rfl⟩
      · rintro ⟨-, same⟩
        exact same.symm

theorem exists_ofText?_iff {text : String} :
    (∃ id, ofText? text = some id) ↔
      IsHex text ∨ text.utf8ByteSize = 12 := by
  simp only [ofText?_eq_some_iff]
  constructor
  · rintro ⟨id, ⟨digits, -⟩ | ⟨size, -⟩⟩
    · exact .inl digits
    · exact .inr size
  · rintro (digits | size)
    · obtain ⟨id, read⟩ := exists_ofHex?_iff.mpr digits
      exact ⟨id, .inl ⟨digits, ofHex?_eq_some_iff.mp read⟩⟩
    · rw [← length_toList_toUTF8] at size
      exact ⟨⟨_, size⟩, .inr ⟨(length_toList_toUTF8 text).symm.trans size, rfl⟩⟩

-- Twelve characters are not always twelve bytes.
example :
    ¬ (IsHex "\u00e9tag\u00e8re 0007" ∨ "\u00e9tag\u00e8re 0007".utf8ByteSize = 12) := by
  decide

end ObjectId

/-- What a record may be asked for by is the identity that it names. -/
theorem Value.identity?_of_recordId?
    {value : Value} {id : ObjectId} (read : value.recordId? = some id) :
    value.identity? = some id := by
  cases value with
  | id other =>
      exact read
  | text text =>
      exact ObjectId.ofText?_of_ofHex? read
  | _ =>
      cases read

theorem Registry.recordId?_of_finish_requireId
    {subject : String} {value : Value} {store : Store} {id : ObjectId}
    (accepted :
      (Program.finish Program.undisturbed (requireId subject value) store).1 =
        .ok id) :
    value.recordId? = some id := by
  cases read : value.recordId? with
  | some other =>
      rw [Operation.finish_requireId_of_some store read subject] at accepted
      cases accepted
      rfl
  | none =>
      obtain ⟨failure, refused⟩ :=
        Operation.finish_requireId_of_none store read subject
      rw [refused] at accepted
      cases accepted

namespace Value

/-- An identity is written with the digits of the halves of its bytes, and a text that
spells these digits in any mixture of cases names it.  A text names an identity just
when it is 24 hexadecimal digits, and then the one that they spell, or when it has
twelve bytes, and then the one of these bytes; no other text names any.  An identifier
by which a record may be asked for is the identity that its text names. -/
theorem identified_exactly :
    (∀ id : ObjectId,
      id.hex.toList.map some =
          (id.bytes.flatMap fun byte =>
            [Hex.lowerDigits[byte.toNat / 16]?,
              Hex.lowerDigits[byte.toNat % 16]?]) ∧
        ∀ text : String,
          text.toList.map Char.toLower = id.hex.toList →
            (Value.text text).identity? = some id) ∧
    ∀ text : String,
      (∀ id, (Value.text text).identity? = some id ↔
        (ObjectId.IsHex text ∧
            text.toList.map Char.toLower = id.hex.toList) ∨
          (text.utf8ByteSize = 12 ∧ text.toUTF8.toList = id.bytes)) ∧
      ((Value.text text).identity? = none ↔
        ¬ ObjectId.IsHex text ∧ text.utf8ByteSize ≠ 12) ∧
      ∀ (subject : String) (store : Store) (id : ObjectId),
        (Program.finish Program.undisturbed
            (Registry.requireId subject (.text text)) store).1 =
          .ok id →
        (Value.text text).identity? = some id := by
  refine
    ⟨fun id => ⟨?_, fun text spelled => ?_⟩, fun text => ⟨fun id => ?_, ?_, ?_⟩⟩
  · rw [ObjectId.hex, String.toList_ofList]
    exact Hex.map_encode id.bytes
  · exact
      ObjectId.ofText?_of_ofHex? (ObjectId.ofHex?_eq_some_iff.mpr spelled)
  · exact ObjectId.ofText?_eq_some_iff
  · rw [identity?, ← not_or, ← ObjectId.exists_ofText?_iff,
      Option.eq_none_iff_forall_ne_some, not_exists]
  · intro subject store id accepted
    exact
      identity?_of_recordId?
        (Registry.recordId?_of_finish_requireId accepted)

/-- An identity whose digits have letters in many places. -/
def letteredId : ObjectId :=
  ⟨[0x5f, 0x1d, 0x7f, 0x0e, 0x9b, 0x1e, 0x8a, 0x3c, 0x2d, 0x4b, 0x6a, 0x1f], rfl⟩

/-- Digits of both cases spell an identity, and so do those by which a record may be asked
for. -/
theorem mixedDigits_identified :
    ("5F1d7f0E9b1e8A3c2D4b6a1F".toList.map Char.toLower =
        letteredId.hex.toList ∧
      (Program.finish Program.undisturbed
          (Registry.requireId "policy" (.text letteredId.hex)) Store.empty).1 =
        .ok letteredId) ∧
      (Value.text "5F1d7f0E9b1e8A3c2D4b6a1F").identity? =
          some letteredId ∧
        (Value.text letteredId.hex).identity? = some letteredId := by
  have spelled :
      "5F1d7f0E9b1e8A3c2D4b6a1F".toList.map Char.toLower =
        letteredId.hex.toList := by
    rw [ObjectId.hex, String.toList_ofList]
    decide
  have read : (Value.text letteredId.hex).recordId? = some letteredId :=
    ObjectId.ofHex?_hex letteredId
  have accepted :=
    congrArg Prod.fst
      (Operation.finish_requireId_of_some Store.empty read "policy")
  exact
    ⟨⟨spelled, accepted⟩,
      (identified_exactly.1 letteredId).2 _ spelled,
      (identified_exactly.2 letteredId.hex).2.2 _ _ _ accepted⟩

end Value

end AccessControl
