import AccessControl.Serialized

/-!
# What becomes of a document in an answer

An answer has the parts of the document in their places, and the identifiers and the
points in time in it are texts, at every depth, but for those that stand directly in a
list.  So all of them are texts just when no list of the document holds one:
`serialized_converts_iff`.
-/

namespace AccessControl

theorem Hex.mem_of_mem_encode
    {bytes : List UInt8} {c : Char} (member : c ∈ encode bytes) :
    c ∈ "0123456789abcdef".toList := by
  have every : ∀ v : Fin 16, digit v ∈ "0123456789abcdef".toList := by
    decide
  obtain ⟨byte, -, inPair⟩ := List.mem_flatMap.mp member
  have high : byte.toNat / 16 < 16 := by
    have := byte.toNat_lt
    omega
  have low : byte.toNat % 16 < 16 := Nat.mod_lt _ (by decide)
  simp only [pair, List.mem_cons, List.not_mem_nil, or_false] at inPair
  rcases inPair with rfl | rfl
  · exact every ⟨_, high⟩
  · exact every ⟨_, low⟩

namespace Value

/-- An identifier or a point in time. -/
def isStamp : Value → Bool
  | id _ => true
  | date _ => true
  | _ => false

/-- The text that stands for an identifier or a point in time: 24 digits in lower case
that are read as the identifier, or the reading of the clock. -/
inductive Spells : Value → String → Prop
  | id {value : ObjectId} {digits : String}
      (size : digits.length = 24)
      (lower : ∀ c ∈ digits.toList, c ∈ "0123456789abcdef".toList)
      (read : ObjectId.ofHex? digits = some value) :
      Spells (.id value) digits
  | date (value : Timestamp) :
      Spells (.date value) (String.ofList value.text)

theorem spells_hex (value : ObjectId) : Spells (.id value) value.hex := by
  refine .id ?_ ?_ (ObjectId.ofHex?_hex value)
  · rw [ObjectId.hex, String.length_ofList, Hex.length_encode, value.size_eq]
  · intro c member
    rw [ObjectId.hex, String.toList_ofList] at member
    exact Hex.mem_of_mem_encode member

theorem Spells.isStamp
    {value : Value} {text : String} (spells : Spells value text) :
    value.isStamp = true := by
  cases spells <;> rfl

mutual

/-- The second value has the parts of the first one in their places, and its
identifiers and points in time as text: all of them when it is so `throughout`, and
else all but those that stand directly in a list. -/
inductive Converts (throughout : Bool) : Value → Value → Prop
  | null : Converts throughout .null .null
  | boolean (b : Bool) : Converts throughout (.boolean b) (.boolean b)
  | number (n : Number) : Converts throughout (.number n) (.number n)
  | text (s : String) : Converts throughout (.text s) (.text s)
  | stamp {value : Value} {s : String} :
      Spells value s → Converts throughout value (.text s)
  | list {items others : List Value} :
      ConvertsItems throughout items others →
        Converts throughout (.list items) (.list others)
  | record {fields others : Fields} :
      ConvertsFields throughout fields others →
        Converts throughout (.record fields) (.record others)

inductive ConvertsItems (throughout : Bool) :
    List Value → List Value → Prop
  | nil : ConvertsItems throughout [] []
  | converted {item other : Value} {items others : List Value} :
      (throughout = true ∨ item.isStamp = false) →
        Converts throughout item other →
          ConvertsItems throughout items others →
            ConvertsItems throughout (item :: items) (other :: others)
  | kept {item : Value} {items others : List Value} :
      throughout = false → item.isStamp = true →
        ConvertsItems throughout items others →
          ConvertsItems throughout (item :: items) (item :: others)

inductive ConvertsFields (throughout : Bool) : Fields → Fields → Prop
  | nil : ConvertsFields throughout [] []
  | cons (name : String) {value other : Value} {fields others : Fields} :
      Converts throughout value other →
        ConvertsFields throughout fields others →
          ConvertsFields throughout ((name, value) :: fields)
            ((name, other) :: others)

end

mutual

theorem converts_serialized :
    (value : Value) → value.isStamp = false →
      Converts false value value.serialized
  | .null, _ => .null
  | .boolean b, _ => .boolean b
  | .number n, _ => .number n
  | .text s, _ => .text s
  | .list items, _ => by
      rw [serialized]
      exact .list (convertsItems_serialized items)
  | .record fields, _ => by
      rw [serialized]
      exact .record (convertsFields_serialized fields)

theorem convertsItems_serialized :
    (items : List Value) → ConvertsItems false items (serializedItems items)
  | [] => .nil
  | item :: items => by
      have others := convertsItems_serialized items
      rw [serializedItems]
      cases stamp : item.isStamp with
      | false =>
          exact .converted (.inr stamp) (converts_serialized item stamp) others
      | true =>
          have same : item.serialized = item := by
            cases item with
            | id _ | date _ =>
                rfl
            | _ =>
                cases stamp
          rw [same]
          exact .kept rfl stamp others

theorem convertsFields_serialized :
    (fields : Fields) → ConvertsFields false fields (serializedFields fields)
  | [] => .nil
  | (name, value) :: fields => by
      have others := convertsFields_serialized fields
      rw [serializedFields]
      refine .cons name ?_ others
      cases value with
      | id value =>
          exact .stamp (spells_hex value)
      | date value =>
          exact .stamp (.date value)
      | list items =>
          exact converts_serialized (.list items) rfl
      | record inner =>
          exact converts_serialized (.record inner) rfl
      | _ =>
          exact converts_serialized _ rfl

end

/-- The part stands in the value, at any depth. -/
inductive Within (part : Value) : Value → Prop
  | whole : Within part part
  | item {item : Value} {items : List Value} :
      item ∈ items → Within part item → Within part (.list items)
  | field {field : String × Value} {fields : Fields} :
      field ∈ fields → Within part field.2 → Within part (.record fields)

/-- No identifier and no point in time stands in the value. -/
def Plain (value : Value) : Prop :=
  ∀ part, Within part value → part.isStamp = false

/-- No list in the value holds an identifier or a point in time directly. -/
def Unlisted (value : Value) : Prop :=
  ∀ items, Within (.list items) value → ∀ item ∈ items, item.isStamp = false

theorem plain_list_iff {items : List Value} :
    Plain (.list items) ↔ ∀ item ∈ items, Plain item := by
  constructor
  · intro plain item member part within
    exact plain part (.item member within)
  · intro each part within
    cases within with
    | whole =>
        rfl
    | item member within =>
        exact each _ member part within

theorem plain_record_iff {fields : Fields} :
    Plain (.record fields) ↔ ∀ field ∈ fields, Plain field.2 := by
  constructor
  · intro plain field member part within
    exact plain part (.field member within)
  · intro each part within
    cases within with
    | whole =>
        rfl
    | field member within =>
        exact each _ member part within

theorem unlisted_list_iff {items : List Value} :
    Unlisted (.list items) ↔
      ∀ item ∈ items, item.isStamp = false ∧ Unlisted item := by
  constructor
  · intro unlisted item member
    exact
      ⟨unlisted items .whole item member,
        fun inner within => unlisted inner (.item member within)⟩
  · intro each inner within
    cases within with
    | whole =>
        exact fun item member => (each item member).1
    | item member within =>
        exact (each _ member).2 inner within

theorem unlisted_record_iff {fields : Fields} :
    Unlisted (.record fields) ↔ ∀ field ∈ fields, Unlisted field.2 := by
  constructor
  · intro unlisted field member inner within
    exact unlisted inner (.field member within)
  · intro each inner within
    cases within with
    | field member within =>
        exact each _ member inner within

theorem unlisted_of_isStamp
    {value : Value} (stamp : value.isStamp = true) : Unlisted value := by
  intro items within
  cases within with
  | whole =>
      cases stamp
  | item _ _ =>
      cases stamp
  | field _ _ =>
      cases stamp

/-! ## What is left in lists -/

mutual

/-- Where all are texts, none is left. -/
theorem Converts.plain {value other : Value} :
    Converts true value other → Plain other
  | .null => fun _ within => by cases within; rfl
  | .boolean _ => fun _ within => by cases within; rfl
  | .number _ => fun _ within => by cases within; rfl
  | .text _ => fun _ within => by cases within; rfl
  | .stamp _ => fun _ within => by cases within; rfl
  | .list items => plain_list_iff.mpr items.plain
  | .record fields => plain_record_iff.mpr fields.plain

theorem ConvertsItems.plain {items others : List Value} :
    ConvertsItems true items others → ∀ other ∈ others, Plain other
  | .nil => fun _ member => nomatch member
  | .converted _ first rest =>
      List.forall_mem_cons.mpr ⟨first.plain, rest.plain⟩

theorem ConvertsFields.plain {fields others : Fields} :
    ConvertsFields true fields others → ∀ other ∈ others, Plain other.2
  | .nil => fun _ member => nomatch member
  | .cons _ first rest =>
      List.forall_mem_cons.mpr ⟨first.plain, rest.plain⟩

end

mutual

/-- What stood directly in a list is still there. -/
theorem Converts.unlisted {value other : Value} :
    Converts false value other → Plain other → Unlisted value
  | .null, _ => fun _ within => by cases within
  | .boolean _, _ => fun _ within => by cases within
  | .number _, _ => fun _ within => by cases within
  | .text _, _ => fun _ within => by cases within
  | .stamp spells, _ => unlisted_of_isStamp spells.isStamp
  | .list items, plain =>
      unlisted_list_iff.mpr (items.unlisted (plain_list_iff.mp plain))
  | .record fields, plain =>
      unlisted_record_iff.mpr (fields.unlisted (plain_record_iff.mp plain))

theorem ConvertsItems.unlisted {items others : List Value} :
    ConvertsItems false items others → (∀ other ∈ others, Plain other) →
      ∀ item ∈ items, item.isStamp = false ∧ Unlisted item
  | .nil, _ => fun _ member => nomatch member
  | .converted apart first rest, plain => by
      rw [List.forall_mem_cons] at plain ⊢
      have unstamped := apart.resolve_left Bool.false_ne_true
      exact ⟨⟨unstamped, first.unlisted plain.1⟩, rest.unlisted plain.2⟩
  | .kept _ stamp rest, plain => by
      have unstamped := (List.forall_mem_cons.mp plain).1 _ .whole
      rw [stamp] at unstamped
      cases unstamped

theorem ConvertsFields.unlisted {fields others : Fields} :
    ConvertsFields false fields others → (∀ other ∈ others, Plain other.2) →
      ∀ field ∈ fields, Unlisted field.2
  | .nil, _ => fun _ member => nomatch member
  | .cons _ first rest, plain => by
      rw [List.forall_mem_cons] at plain ⊢
      exact ⟨first.unlisted plain.1, rest.unlisted plain.2⟩

end

mutual

/-- Where none stands directly in a list, all are texts. -/
theorem Converts.throughout {value other : Value} :
    Converts false value other → Unlisted value → Converts true value other
  | .null, _ => .null
  | .boolean b, _ => .boolean b
  | .number n, _ => .number n
  | .text s, _ => .text s
  | .stamp spells, _ => .stamp spells
  | .list items, unlisted =>
      .list (items.throughout (unlisted_list_iff.mp unlisted))
  | .record fields, unlisted =>
      .record (fields.throughout (unlisted_record_iff.mp unlisted))

theorem ConvertsItems.throughout {items others : List Value} :
    ConvertsItems false items others →
      (∀ item ∈ items, item.isStamp = false ∧ Unlisted item) →
        ConvertsItems true items others
  | .nil, _ => .nil
  | .converted _ first rest, unlisted => by
      rw [List.forall_mem_cons] at unlisted
      exact
        .converted (.inl rfl) (first.throughout unlisted.1.2)
          (rest.throughout unlisted.2)
  | .kept _ stamp _, unlisted => by
      have unstamped := (List.forall_mem_cons.mp unlisted).1.1
      rw [stamp] at unstamped
      cases unstamped

theorem ConvertsFields.throughout {fields others : Fields} :
    ConvertsFields false fields others →
      (∀ field ∈ fields, Unlisted field.2) →
        ConvertsFields true fields others
  | .nil, _ => .nil
  | .cons name first rest, unlisted => by
      rw [List.forall_mem_cons] at unlisted
      exact
        .cons name (first.throughout unlisted.1) (rest.throughout unlisted.2)

end

/-- The answer for a document has its parts in their places, with its identifiers and
points in time as text but for those that stand directly in a list.  All are texts,
and none is left at any depth, just when no list of the document holds one
directly. -/
theorem serialized_converts_iff (document : Fields) :
    Converts false (.record document) (serialized (.record document)) ∧
      (Converts true (.record document) (serialized (.record document)) ↔
        Unlisted (.record document)) ∧
      (Plain (serialized (.record document)) ↔
        Unlisted (.record document)) := by
  have converts := converts_serialized (.record document) rfl
  refine ⟨converts, ⟨?_, ?_⟩, ?_, ?_⟩
  · intro throughout
    exact converts.unlisted throughout.plain
  · exact converts.throughout
  · exact converts.unlisted
  · intro unlisted
    exact (converts.throughout unlisted).plain

/-- A document of a group, whose policies are a list of identifiers. -/
def groupDocument : Fields :=
  [("policies", .list [.id ⟨List.replicate 12 0, rfl⟩])]

/-- The identifier in the list is still an identifier in the answer. -/
theorem groupDocument_unconverted :
    serialized (.record groupDocument) = .record groupDocument ∧
      ¬ Converts true (.record groupDocument)
          (serialized (.record groupDocument)) := by
  refine ⟨rfl, fun converts => ?_⟩
  have unstamped :=
    converts.plain (.id _)
      (.field List.mem_cons_self (.item List.mem_cons_self .whole))
  cases unstamped

end Value

end AccessControl
