import AccessControl.Value

/-!
# Document store

A store holds collections by name, and a collection its documents in order.
Filters look at single fields; an array passes a test for equality when it
equals the value or holds it.  Every write acts on one collection: it changes
what `documents` gives for that name and for no other.
-/

namespace AccessControl

/-- What is asked of one field. -/
inductive FieldTest where
  | equals (value : Value)
  | oneOf (values : List Value)
  | differs (value : Value)

namespace FieldTest

/-- Whether the field's value equals the other one or holds it. -/
def agrees (found value : Value) : Bool :=
  value.same found ||
    match found with
    | .list items => items.any value.same
    | _ => false

/-- Whether the value of a field passes; a missing field counts as null. -/
def passes (test : FieldTest) (found : Value) : Bool :=
  match test with
  | equals value => agrees found value
  | oneOf values => values.any (agrees found)
  | differs value => !agrees found value

end FieldTest

/-- What is asked of a document: all the tests together. -/
abbrev Filter := List (String × FieldTest)

namespace Filter

def admits (filter : Filter) (document : Fields) : Bool :=
  filter.all fun test =>
    test.2.passes ((Fields.get? document test.1).getD .null)

def byId (id : ObjectId) : Filter := [("_id", .equals (.id id))]

end Filter

/-- A change of the values that an array field holds. -/
inductive ArrayEdit where
  | addToSet (field : String) (value : Value)
  | pull (field : String) (value : Value)

namespace ArrayEdit

/-- The values of the field, none when it is missing or no array. -/
def held (document : Fields) (field : String) : List Value :=
  match Fields.get? document field with
  | some (.list items) => items
  | _ => []

/-- Adds the value at the end unless the array holds it already, and takes every
equal value out; an array that is missing is created by adding only. -/
def apply (edit : ArrayEdit) (document : Fields) : Fields :=
  match edit with
  | addToSet field value =>
      let items := held document field
      if items.any value.same then document
      else Fields.set document field (.list (items ++ [value]))
  | pull field value =>
      match Fields.get? document field with
      | some (.list items) =>
          Fields.set document field
            (.list (items.filter fun item => !value.same item))
      | _ => document

end ArrayEdit

/-- Two values that have no order: points in time of which only one has a known
clock, or values of different kinds. -/
structure Unordered where
  first : Value
  second : Value

namespace Value

mutual

/-- Whether a value stands before another; equal values stand beside each other, and
other values are compared only with their own kind. -/
def before? (a b : Value) : Except Unordered Bool :=
  if same a b then .ok false
  else
    match a, b with
    | text s, text t => .ok (s < t)
    | id i, id j => .ok (i.bytes < j.bytes)
    | list as, list bs => listBefore? as bs
    | date s, date t =>
        if s.offset.isSome == t.offset.isSome then
          .ok (s.instant < t.instant)
        else .error ⟨a, b⟩
    | a, b =>
        match a.asNumber?, b.asNumber? with
        | some m, some n => .ok (m.compare? n == some .lt)
        | _, _ => .error ⟨a, b⟩

/-- Lists are compared by the first items that differ. -/
def listBefore? : List Value → List Value → Except Unordered Bool
  | a :: as, b :: bs => if same a b then listBefore? as bs else before? a b
  | [], _ :: _ => .ok true
  | _, [] => .ok false

end

/-- Whether a field stands before another one; a missing field stands before all
others. -/
def fieldBefore? : Option Value → Option Value → Except Unordered Bool
  | some a, some b => before? a b
  | none, some _ => .ok true
  | _, none => .ok false

end Value

/-- The first two values of a list that have no order, the earlier one as the
second. -/
def unordered? (values : List Value) : Option Unordered :=
  let faults (pair : Value × Value) : Option Unordered :=
    match pair.2.before? pair.1 with
    | .error found => some found
    | .ok _ => none
  ((values.zip values.tail).findSome? faults).or
    (values.findSome? fun value =>
      values.findSome? fun other => faults (value, other))

/-- The documents in ascending order of a field, those without it first; documents
that do not differ there keep their order. -/
def sortedBy (field : String) (documents : List Fields) :
    Except Unordered (List Fields) :=
  let precedes (a b : Fields) : Bool :=
    match Value.fieldBefore? (Fields.get? b field) (Fields.get? a field) with
    | .ok before => !before
    | .error _ => true
  match unordered? (documents.filterMap fun document =>
      Fields.get? document field) with
  | some fault => .error fault
  | none => .ok (documents.mergeSort precedes)

/-! ## Stores -/

structure Store where
  collections : List (String × List Fields)

namespace Store

def empty : Store := ⟨[]⟩

/-- The documents of a collection; one that was never written to is empty. -/
def documents (store : Store) (name : String) : List Fields :=
  (store.collections.lookup name).getD []

/-- Puts the documents in the place of the first collection with this name, or
else at the end. -/
def put (name : String) (documents : List Fields) :
    List (String × List Fields) → List (String × List Fields)
  | [] => [(name, documents)]
  | (key, old) :: rest =>
      if key = name then (name, documents) :: rest
      else (key, old) :: put name documents rest

/-- Gives a collection new documents. -/
def write (store : Store) (name : String) (documents : List Fields) : Store :=
  ⟨put name documents store.collections⟩

/-- The collections that hold any document. -/
def inhabited (store : Store) : List (String × List Fields) :=
  store.collections.filter fun collection => !collection.2.isEmpty

theorem lookup_put_self (name : String) (documents : List Fields)
    (collections : List (String × List Fields)) :
    (put name documents collections).lookup name = some documents := by
  induction collections with
  | nil => simp [put]
  | cons collection rest inductionHypothesis =>
      obtain ⟨key, old⟩ := collection
      unfold put
      split
      · simp
      · rename_i different
        have other : (name == key) = false := by
          simpa using fun equal => different equal.symm
        rw [List.lookup_cons, other]
        exact inductionHypothesis

theorem lookup_put_of_ne {name other : String} (different : other ≠ name)
    (documents : List Fields) (collections : List (String × List Fields)) :
    (put name documents collections).lookup other =
      collections.lookup other := by
  have unequal : (other == name) = false := by simpa using different
  induction collections with
  | nil => simp [put, List.lookup_cons, unequal]
  | cons collection rest inductionHypothesis =>
      obtain ⟨key, old⟩ := collection
      unfold put
      split
      · rename_i equal
        subst equal
        simp [List.lookup_cons, unequal]
      · simp only [List.lookup_cons]
        rw [inductionHypothesis]

theorem documents_write_self (store : Store) (name : String)
    (documents : List Fields) :
    (store.write name documents).documents name = documents := by
  simp [Store.documents, write, lookup_put_self]

theorem documents_write_of_ne (store : Store) {name other : String}
    (different : other ≠ name) (documents : List Fields) :
    (store.write name documents).documents other = store.documents other := by
  simp [Store.documents, write, lookup_put_of_ne different]

/-- The list with the first item that passes replaced. -/
def replaceFirst {α : Type} (passes : α → Bool) (change : α → α) :
    List α → List α
  | [] => []
  | item :: rest =>
      if passes item then change item :: rest
      else item :: replaceFirst passes change rest

/-- The list without the first item that passes. -/
def dropFirst {α : Type} (passes : α → Bool) : List α → List α
  | [] => []
  | item :: rest =>
      if passes item then rest else item :: dropFirst passes rest

end Store

end AccessControl
