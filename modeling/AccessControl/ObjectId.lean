import AccessControl.Bytes.Hex

/-!
# Object identifiers

An identifier is twelve bytes, written as 24 hexadecimal digits.  A text names
an identifier when it is 24 such digits of either case, and otherwise when its
encoding is twelve bytes long: then it is those bytes.
-/

namespace AccessControl

structure ObjectId where
  bytes : List UInt8
  size_eq : bytes.length = 12
deriving DecidableEq

namespace ObjectId

def hex (id : ObjectId) : String :=
  String.ofList (Hex.encode id.bytes)

def ofBytes? (bytes : List UInt8) : Option ObjectId :=
  if size : bytes.length = 12 then some ⟨bytes, size⟩ else none

/-- Reads exactly 24 hexadecimal digits. -/
def ofHex? (text : String) : Option ObjectId :=
  (Hex.decode? text.toList).bind ofBytes?

/-- Reads an identifier spelled as 24 hexadecimal digits or given by the twelve
bytes of the text. -/
def ofText? (text : String) : Option ObjectId :=
  match ofHex? text with
  | some id => some id
  | none => ofBytes? text.toUTF8.toList

theorem ofBytes?_eq_some_iff {bytes : List UInt8} {id : ObjectId} :
    ofBytes? bytes = some id ↔ id.bytes = bytes := by
  unfold ofBytes?
  split
  · constructor
    · rintro ⟨rfl⟩
      rfl
    · rintro rfl
      rfl
  · constructor
    · intro absurd_eq
      cases absurd_eq
    · rintro rfl
      exact absurd id.size_eq ‹_›

theorem ofHex?_hex (id : ObjectId) : ofHex? id.hex = some id := by
  simp [ofHex?, hex, Hex.decode?_encode, ofBytes?_eq_some_iff]

theorem ofText?_of_ofHex? {text : String} {id : ObjectId}
    (read : ofHex? text = some id) :
    ofText? text = some id := by
  simp [ofText?, read]

end ObjectId

end AccessControl
