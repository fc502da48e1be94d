import AccessControl.Calendar
import AccessControl.Number
import AccessControl.ObjectId
import AccessControl.Text.Quoted

/-!
# Values

The data that documents, requests and tokens are made of: JSON values with
integers and doubles kept apart, object identifiers and points in time.  The
fields of a record keep their order.
-/

namespace AccessControl

inductive Value where
  | null
  | boolean (value : Bool)
  | number (value : Number)
  | text (value : String)
  | list (items : List Value)
  | record (fields : List (String × Value))
  | id (value : ObjectId)
  | date (value : Timestamp)

abbrev Fields := List (String × Value)

namespace Fields

def get? (fields : Fields) (name : String) : Option Value :=
  fields.lookup name

/-- Gives a field a value: in its place when it exists, else at the end. -/
def set : Fields → String → Value → Fields
  | [], name, value => [(name, value)]
  | (key, old) :: rest, name, value =>
      if key = name then (name, value) :: rest
      else (key, old) :: set rest name value

/-- Sets every field of `changes` in turn. -/
def merge (fields changes : Fields) : Fields :=
  changes.foldl (fun merged change => merged.set change.1 change.2) fields

def names (fields : Fields) : List String :=
  fields.map Prod.fst

theorem get?_set_self (fields : Fields) (name : String) (value : Value) :
    (fields.set name value).get? name = some value := by
  induction fields with
  | nil => simp [set, get?]
  | cons field rest inductionHypothesis =>
      obtain ⟨key, old⟩ := field
      unfold set
      split
      · simp [get?]
      · rename_i different
        have other : (name == key) = false := by
          simpa using fun equal => different equal.symm
        unfold get? at inductionHypothesis ⊢
        rw [List.lookup_cons, other]
        exact inductionHypothesis

theorem get?_set_of_ne {fields : Fields} {name other : String} {value : Value}
    (different : other ≠ name) :
    (fields.set name value).get? other = fields.get? other := by
  have unequal : (other == name) = false := by simpa using different
  induction fields with
  | nil => simp [set, get?, List.lookup_cons, unequal]
  | cons field rest inductionHypothesis =>
      obtain ⟨key, old⟩ := field
      unfold set
      split
      · rename_i equal
        subst equal
        simp [get?, List.lookup_cons, unequal]
      · simp only [get?, List.lookup_cons] at inductionHypothesis ⊢
        rw [inductionHypothesis]

theorem set_of_notMem {fields : Fields} {name : String}
    (new : name ∉ fields.names) (value : Value) :
    fields.set name value = fields ++ [(name, value)] := by
  induction fields with
  | nil => rfl
  | cons field rest inductionHypothesis =>
      obtain ⟨key, old⟩ := field
      simp only [names, List.map_cons, List.mem_cons, not_or] at new
      rw [set, if_neg fun same => new.1 same.symm,
        inductionHypothesis new.2, List.cons_append]

theorem mem_of_mem_set {fields : Fields} {name : String} {value : Value}
    {field : String × Value} (member : field ∈ fields.set name value) :
    field ∈ fields ∨ field = (name, value) := by
  induction fields with
  | nil => exact .inr (List.mem_singleton.mp member)
  | cons first rest inductionHypothesis =>
      obtain ⟨key, old⟩ := first
      unfold set at member
      split at member
      · rcases List.mem_cons.mp member with same | later
        · exact .inr same
        · exact .inl (List.mem_cons_of_mem _ later)
      · rcases List.mem_cons.mp member with same | later
        · exact .inl (same ▸ List.mem_cons_self)
        · exact (inductionHypothesis later).imp_left (List.mem_cons_of_mem _)

theorem mem_names_of_mem_names_set {fields : Fields} {name other : String}
    {value : Value} (member : other ∈ (fields.set name value).names) :
    other ∈ fields.names ∨ other = name := by
  obtain ⟨field, inside, rfl⟩ := List.mem_map.mp member
  rcases mem_of_mem_set inside with earlier | rfl
  · exact .inl (List.mem_map_of_mem earlier)
  · exact .inr rfl

theorem nodup_names_set {fields : Fields} (distinct : fields.names.Nodup)
    (name : String) (value : Value) :
    (fields.set name value).names.Nodup := by
  induction fields with
  | nil => exact List.nodup_cons.mpr ⟨List.not_mem_nil, List.nodup_nil⟩
  | cons field rest inductionHypothesis =>
      obtain ⟨key, old⟩ := field
      obtain ⟨new, others⟩ := List.nodup_cons.mp distinct
      unfold set
      split
      · rename_i same
        subst same
        exact distinct
      · rename_i different
        refine List.nodup_cons.mpr
          ⟨fun member => ?_, inductionHypothesis others⟩
        rcases mem_names_of_mem_names_set member with earlier | same
        · exact new earlier
        · exact different same

end Fields

namespace Value

def integer (n : Int) : Value :=
  .number (.integer n)

def texts (items : List String) : Value :=
  .list (items.map .text)

/-- Null, false, zero and everything empty count as nothing. -/
def isTruthy : Value → Bool
  | null => false
  | boolean value => value
  | number value => !value.isZero
  | text value => value != ""
  | list items => !items.isEmpty
  | record fields => !fields.isEmpty
  | id _ => true
  | date _ => true

def isNull : Value → Bool
  | null => true
  | _ => false

/-- What can be gone through one by one: the items of a list, the names of a
record, the characters of a text. -/
def members? : Value → Option (List Value)
  | list items => some items
  | record fields => some (fields.map fun field => text field.1)
  | text characters =>
      some (characters.toList.map fun c => text (String.singleton c))
  | _ => none

/-! ## Stored equality -/

/-- Booleans count as the numbers one and zero. -/
def asNumber? : Value → Option Number
  | number value => some value
  | boolean value => some (.integer (if value then 1 else 0))
  | _ => none

/-- Two points in time are equal when both clocks are known and the instants agree,
or neither is known and the readings agree. -/
def sameDate (a b : Timestamp) : Bool :=
  a.offset.isSome == b.offset.isSome && a.instant == b.instant

mutual

/-- The equality of stored values: numbers by their exact value, records without
regard to the order of their fields. -/
def same : Value → Value → Bool
  | null, null => true
  | text a, text b => a == b
  | list a, list b => sameItems a b
  | record a, record b => a.length == b.length && sameFields a b
  | id a, id b => a == b
  | date a, date b => sameDate a b
  | number a, b => b.asNumber?.any a.same
  | boolean a, b => b.asNumber?.any (Number.integer (if a then 1 else 0)).same
  | _, _ => false

def sameItems : List Value → List Value → Bool
  | [], [] => true
  | a :: as, b :: bs => same a b && sameItems as bs
  | _, _ => false

/-- Whether every field of the first list has an equal one in the second. -/
def sameFields : Fields → Fields → Bool
  | [], _ => true
  | (name, value) :: rest, other =>
      (match other.get? name with
       | some found => same value found
       | none => false) && sameFields rest other

end

theorem same_id (a b : ObjectId) : same (id a) (id b) = (a == b) := by
  rw [same]

theorem same_text (a b : String) : same (text a) (text b) = (a == b) := by
  rw [same]

/-- Lists and records cannot be looked up by value. -/
def isKey : Value → Bool
  | list _ => false
  | record _ => false
  | _ => true

mutual

/-- Whether two values are the very same, down to the order of their fields and the
kinds of their numbers. -/
def identical : Value → Value → Bool
  | null, null => true
  | boolean a, boolean b => a == b
  | number a, number b => a == b
  | text a, text b => a == b
  | list a, list b => identicalItems a b
  | record a, record b => identicalFields a b
  | id a, id b => a == b
  | date a, date b => a == b
  | _, _ => false

def identicalItems : List Value → List Value → Bool
  | [], [] => true
  | a :: as, b :: bs => identical a b && identicalItems as bs
  | _, _ => false

def identicalFields : Fields → Fields → Bool
  | [], [] => true
  | (name, a) :: as, (other, b) :: bs =>
      name == other && identical a b && identicalFields as bs
  | _, _ => false

end

mutual

theorem identical_iff : ∀ a b : Value, identical a b = true ↔ a = b
  | null, b => by
      cases b <;> simp [identical]
  | boolean _, b => by
      cases b <;> simp [identical]
  | number _, b => by
      cases b <;> simp [identical]
  | text _, b => by
      cases b <;> simp [identical]
  | list items, b => by
      cases b with
      | list others =>
          rw [identical, identicalItems_iff items others, list.injEq]
      | _ =>
          simp [identical]
  | record fields, b => by
      cases b with
      | record others =>
          rw [identical, identicalFields_iff fields others, record.injEq]
      | _ =>
          simp [identical]
  | id _, b => by
      cases b <;> simp [identical]
  | date _, b => by
      cases b <;> simp [identical]

theorem identicalItems_iff :
    ∀ as bs : List Value, identicalItems as bs = true ↔ as = bs
  | [], bs => by
      cases bs <;> simp [identicalItems]
  | a :: as, bs => by
      cases bs with
      | nil =>
          simp [identicalItems]
      | cons b bs =>
          rw [identicalItems, Bool.and_eq_true, identical_iff a b,
            identicalItems_iff as bs, List.cons.injEq]

theorem identicalFields_iff :
    ∀ as bs : Fields, identicalFields as bs = true ↔ as = bs
  | [], bs => by
      cases bs <;> simp [identicalFields]
  | (name, a) :: as, bs => by
      cases bs with
      | nil =>
          simp [identicalFields]
      | cons b bs =>
          obtain ⟨other, b⟩ := b
          rw [identicalFields, Bool.and_eq_true, Bool.and_eq_true, beq_iff_eq,
            identical_iff a b, identicalFields_iff as bs, List.cons.injEq,
            Prod.mk.injEq]

end

instance : DecidableEq Value := fun a b =>
  decidable_of_iff _ (identical_iff a b)

def kind : Value → String
  | null => "NoneType"
  | boolean _ => "bool"
  | number (.integer _) => "int"
  | number (.double _) => "float"
  | text _ => "str"
  | list _ => "list"
  | record _ => "dict"
  | id _ => "ObjectId"
  | date _ => "datetime.datetime"

/-- The last part of the word for the kind of a value. -/
def shortKind : Value → String
  | date _ => "datetime"
  | value => value.kind

mutual

/-- A value as a message shows it: texts in quotes, lists in brackets, records in
braces, and identifiers and points in time under the names of their kinds. -/
def shown : Value → List Char
  | null => "None".toList
  | boolean true => "True".toList
  | boolean false => "False".toList
  | number value => value.text
  | text value => (Text.quoted value).toList
  | list items => '[' :: shownItems items ++ [']']
  | record fields => '\x7b' :: shownFields fields ++ ['\x7d']
  | id value => "ObjectId('".toList ++ value.hex.toList ++ "')".toList
  | date value => value.shown

def shownItems : List Value → List Char
  | [] => []
  | [item] => shown item
  | item :: rest => shown item ++ ',' :: ' ' :: shownItems rest

def shownFields : Fields → List Char
  | [] => []
  | [(name, value)] => (Text.quoted name).toList ++ ':' :: ' ' :: shown value
  | (name, value) :: rest =>
      (Text.quoted name).toList ++ ':' :: ' ' :: shown value ++
        ',' :: ' ' :: shownFields rest

end

/-- A value as it is put into a line of text: a text stands for itself, an
identifier for its digits, and a point in time has a blank before the time of
day. -/
def plain : Value → String
  | text value => value
  | id value => value.hex
  | date value =>
      String.ofList (value.text.map fun c => if c = 'T' then ' ' else c)
  | value => String.ofList value.shown

end Value

end AccessControl
