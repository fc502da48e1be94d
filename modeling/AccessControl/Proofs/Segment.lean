import AccessControl.Token

/-!
# Segments of a token

What is written in Base64 for URLs is read back as it was, and holds no point, so
that a token falls apart into the segments that it was put together from.  The same
holds for the bytes of a text.
-/

namespace AccessControl

namespace Base64

section Characters

variable {value : Nat} (small : value < 64)

include small

theorem value?_character : value? (character value) = some value := by
  have every : ∀ v : Fin 64, value? (character v) = some v.val := by
    decide
  exact every ⟨value, small⟩

theorem character_ne_padding : character value ≠ padding := by
  have every : ∀ v : Fin 64, character v ≠ padding := by
    decide
  exact every ⟨value, small⟩

theorem character_ne_point : character value ≠ Token.point := by
  have every : ∀ v : Fin 64, character v ≠ Token.point := by
    decide
  exact every ⟨value, small⟩

/-- A character of the alphabet is read, whatever stands before it. -/
theorem decodeFrom_character (place held pads : Nat) (rest : List UInt8) :
    decodeFrom place held pads (character value :: rest) =
      if place = 0 then decodeFrom 1 value 0 rest
      else if place = 1 then
        (decodeFrom 2 (value % 16) 0 rest).map
          (UInt8.ofNat (held * 4 + value / 16) :: ·)
      else if place = 2 then
        (decodeFrom 3 (value % 4) 0 rest).map
          (UInt8.ofNat (held * 16 + value / 4) :: ·)
      else
        (decodeFrom 0 0 0 rest).map (UInt8.ofNat (held * 64 + value) :: ·) := by
  rw [decodeFrom, if_neg (character_ne_padding small),
    value?_character small]

end Characters

theorem ofNat_eq_of_toNat_eq {n : Nat} {byte : UInt8} (same : n = byte.toNat) :
    UInt8.ofNat n = byte := by
  rw [same, UInt8.ofNat_toNat]

/-- The first two characters of a group give its first byte. -/
theorem decodeFrom_first
    (a : UInt8) {low : Nat} (small : low < 16) (rest : List UInt8) :
    decodeFrom 0 0 0
        (character (a.toNat / 4) :: character (a.toNat % 4 * 16 + low) ::
          rest) =
      (decodeFrom 2 low 0 rest).map (a :: ·) := by
  have bound := a.toNat_lt
  have first : a.toNat / 4 < 64 := by omega
  have second : a.toNat % 4 * 16 + low < 64 := by omega
  have whole :
      UInt8.ofNat (a.toNat / 4 * 4 + (a.toNat % 4 * 16 + low) / 16) = a :=
    ofNat_eq_of_toNat_eq (by omega)
  have left : (a.toNat % 4 * 16 + low) % 16 = low := by omega
  rw [decodeFrom_character first, if_pos rfl, decodeFrom_character second,
    if_neg (by decide), if_pos rfl, whole, left]

theorem decodeFrom_second
    (b : UInt8) {low : Nat} (small : low < 4) (rest : List UInt8) :
    decodeFrom 2 (b.toNat / 16) 0
        (character (b.toNat % 16 * 4 + low) :: rest) =
      (decodeFrom 3 low 0 rest).map (b :: ·) := by
  have bound := b.toNat_lt
  have third : b.toNat % 16 * 4 + low < 64 := by omega
  have whole :
      UInt8.ofNat (b.toNat / 16 * 16 + (b.toNat % 16 * 4 + low) / 4) = b :=
    ofNat_eq_of_toNat_eq (by omega)
  have left : (b.toNat % 16 * 4 + low) % 4 = low := by omega
  rw [decodeFrom_character third, if_neg (by decide), if_neg (by decide),
    if_pos rfl, whole, left]

theorem decodeFrom_third (c : UInt8) (rest : List UInt8) :
    decodeFrom 3 (c.toNat / 64) 0 (character (c.toNat % 64) :: rest) =
      (decodeFrom 0 0 0 rest).map (c :: ·) := by
  have small : c.toNat % 64 < 64 := Nat.mod_lt _ (by decide)
  have whole : UInt8.ofNat (c.toNat / 64 * 64 + c.toNat % 64) = c :=
    ofNat_eq_of_toNat_eq (Nat.div_add_mod' _ _)
  rw [decodeFrom_character small, if_neg (by decide), if_neg (by decide),
    if_neg (by decide), whole]

theorem decode?_encode (bytes : List UInt8) :
    decode? (encode bytes) = some bytes := by
  unfold decode?
  induction bytes using encode.induct with
  | case1 =>
      rfl
  | case2 a =>
      have read := decodeFrom_first a (show 0 < 16 by decide)
      simp only [Nat.add_zero] at read
      rw [encode]
      exact read [padding, padding]
  | case3 a b =>
      have high : b.toNat / 16 < 16 := by
        have bound := b.toNat_lt
        omega
      have second := decodeFrom_second b (show 0 < 4 by decide) [padding]
      rw [Nat.add_zero] at second
      have ending : decodeFrom 3 0 0 [padding] = some [] := by
        decide
      rw [ending] at second
      have read := decodeFrom_first a high
        [character (b.toNat % 16 * 4), padding]
      rw [second] at read
      rw [encode]
      exact read
  | case4 a b c rest inductionHypothesis =>
      have high : b.toNat / 16 < 16 := by
        have bound := b.toNat_lt
        omega
      have higher : c.toNat / 64 < 4 := by
        have bound := c.toNat_lt
        omega
      have padded :
          (encode (a :: b :: c :: rest)).length % 4 =
            (encode rest).length % 4 := by
        simp only [encode, List.length_cons]
        omega
      rw [padded, encode]
      simp only [List.cons_append]
      rw [decodeFrom_first a high, decodeFrom_second b higher,
        decodeFrom_third, inductionHypothesis]
      rfl

theorem exists_of_mem_encode
    {bytes : List UInt8} {code : UInt8} (member : code ∈ encode bytes) :
    ∃ value, value < 64 ∧ code = character value := by
  induction bytes using encode.induct with
  | case1 =>
      cases member
  | case2 a =>
      have bound := a.toNat_lt
      simp only [encode, List.mem_cons, List.not_mem_nil, or_false] at member
      rcases member with rfl | rfl
      · exact ⟨_, by omega, rfl⟩
      · exact ⟨_, by omega, rfl⟩
  | case3 a b =>
      have bound := a.toNat_lt
      have bound' := b.toNat_lt
      simp only [encode, List.mem_cons, List.not_mem_nil, or_false] at member
      rcases member with rfl | rfl | rfl
      · exact ⟨_, by omega, rfl⟩
      · exact ⟨_, by omega, rfl⟩
      · exact ⟨_, by omega, rfl⟩
  | case4 a b c rest inductionHypothesis =>
      have bound := a.toNat_lt
      have bound' := b.toNat_lt
      have bound'' := c.toNat_lt
      simp only [encode, List.mem_cons] at member
      rcases member with rfl | rfl | rfl | rfl | later
      · exact ⟨_, by omega, rfl⟩
      · exact ⟨_, by omega, rfl⟩
      · exact ⟨_, by omega, rfl⟩
      · exact ⟨_, by omega, rfl⟩
      · exact inductionHypothesis later

theorem point_notMem_encode (bytes : List UInt8) :
    Token.point ∉ encode bytes := by
  intro member
  obtain ⟨value, small, same⟩ := exists_of_mem_encode member
  exact character_ne_point small same.symm

theorem ascii_of_mem_encode
    {bytes : List UInt8} {code : UInt8} (member : code ∈ encode bytes) :
    code.toNat < 0x80 := by
  obtain ⟨value, small, rfl⟩ := exists_of_mem_encode member
  have every : ∀ v : Fin 64, (character v).toNat < 0x80 := by
    decide
  exact every ⟨value, small⟩

end Base64

namespace Token

variable {front back : List UInt8}

theorem splitFirst?_append
    (pointless : point ∉ front) (back : List UInt8) :
    splitFirst? (front ++ point :: back) = some (front, back) := by
  have passes : ∀ byte ∈ front, (byte != point) = true := by
    intro byte member
    have different : byte ≠ point := by
      rintro rfl
      exact pointless member
    simpa using different
  unfold splitFirst?
  rw [List.dropWhile_append_of_pos passes,
    List.takeWhile_append_of_pos passes]
  simp

theorem splitLast?_append
    (front : List UInt8) (pointless : point ∉ back) :
    splitLast? (front ++ point :: back) = some (front, back) := by
  unfold splitLast?
  have reversed :
      (front ++ point :: back).reverse =
        back.reverse ++ point :: front.reverse := by
    simp
  rw [reversed, splitFirst?_append (by simpa using pointless)]
  simp

/-! ## Texts as bytes -/

theorem toList_loop (bytes : ByteArray) (place : Nat) (read : List UInt8) :
    ByteArray.toList.loop bytes place read =
      read.reverse ++ bytes.data.toList.drop place := by
  fun_induction ByteArray.toList.loop bytes place read with
  | case1 place read inside inductionHypothesis =>
      have bound : place < bytes.data.toList.length := inside
      have here : bytes.get! place = bytes.data.toList[place] := by
        change bytes.data[place]! = bytes.data.toList[place]
        rw [getElem!_pos bytes.data place inside, Array.getElem_toList]
      rw [inductionHypothesis, List.drop_eq_getElem_cons bound, here]
      simp
  | case2 place read outside =>
      have bound : bytes.data.toList.length ≤ place := Nat.le_of_not_lt outside
      rw [List.drop_eq_nil_of_le bound, List.append_nil]

theorem toList_eq (bytes : ByteArray) : bytes.toList = bytes.data.toList := by
  unfold ByteArray.toList
  rw [toList_loop]
  rfl

theorem fromUTF8?_bytesOf (text : List Char) :
    String.fromUTF8? ⟨(bytesOf text).toArray⟩ = some (String.ofList text) := by
  have same :
      (⟨(bytesOf text).toArray⟩ : ByteArray) =
        (String.ofList text).toByteArray := by
    unfold bytesOf
    rw [toList_eq]
    rfl
  unfold String.fromUTF8?
  rw [same, dif_pos (String.ofList text).isValidUTF8]
  rfl

theorem utf8EncodeChar_ofNat {n : Nat} (ascii : n < 0x80) :
    String.utf8EncodeChar (Char.ofNat n) = [UInt8.ofNat n] := by
  have every :
      ∀ v : Fin 0x80,
        String.utf8EncodeChar (Char.ofNat v) = [UInt8.ofNat v] := by
    decide
  exact every ⟨n, ascii⟩

theorem exists_text_of_ascii
    {bytes : List UInt8} (ascii : ∀ byte ∈ bytes, byte.toNat < 0x80) :
    ∃ text : String, text.toUTF8.toList = bytes := by
  refine ⟨String.ofList (bytes.map fun byte => Char.ofNat byte.toNat), ?_⟩
  rw [toList_eq]
  change
    ((bytes.map fun byte => Char.ofNat byte.toNat).flatMap
      String.utf8EncodeChar).toByteArray.data.toList = bytes
  rw [List.data_toByteArray, List.flatMap_map]
  change bytes.flatMap _ = bytes
  induction bytes with
  | nil =>
      rfl
  | cons byte bytes inductionHypothesis =>
      have first := utf8EncodeChar_ofNat (ascii byte List.mem_cons_self)
      have others :=
        inductionHypothesis fun byte member =>
          ascii byte (List.mem_cons_of_mem _ member)
      rw [List.flatMap_cons, first, others, UInt8.ofNat_toNat,
        List.singleton_append]

end Token

end AccessControl
