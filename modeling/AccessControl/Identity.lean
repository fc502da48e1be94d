import AccessControl.Value

/-!
# Identities

A value names an identity when it is an object identifier or a text that reads
as one.  An identity set keeps its members in ascending order, each once, so
that two sets with the same members are the same list.
-/

namespace AccessControl

namespace Value

/-- The identity that a value names. -/
def identity? : Value → Option ObjectId
  | id value => some value
  | text value => ObjectId.ofText? value
  | _ => none

/-- What is said about a value that names no identity. -/
def identityMessage (value : Value) : String :=
  "Invalid ObjectId: " ++ String.ofList value.shown

end Value

/-- Identities in ascending order of their bytes, each once. -/
abbrev IdSet := List ObjectId

namespace IdSet

def insert (id : ObjectId) : IdSet → IdSet
  | [] => [id]
  | first :: rest =>
      if id = first then first :: rest
      else if id.bytes < first.bytes then id :: first :: rest
      else first :: insert id rest

def ofList (ids : List ObjectId) : IdSet :=
  ids.foldr insert []

theorem mem_insert {id other : ObjectId} {ids : IdSet} :
    other ∈ insert id ids ↔ other = id ∨ other ∈ ids := by
  induction ids with
  | nil => simp [insert]
  | cons first rest inductionHypothesis =>
      unfold insert
      split
      · rename_i equal
        subst equal
        simp
      · split
        · simp
        · simp only [List.mem_cons, inductionHypothesis]
          constructor
          · rintro (rfl | rfl | member)
            · exact Or.inr (Or.inl rfl)
            · exact Or.inl rfl
            · exact Or.inr (Or.inr member)
          · rintro (rfl | rfl | member)
            · exact Or.inr (Or.inl rfl)
            · exact Or.inl rfl
            · exact Or.inr (Or.inr member)

theorem mem_ofList {id : ObjectId} {ids : List ObjectId} :
    id ∈ ofList ids ↔ id ∈ ids := by
  induction ids with
  | nil => simp [ofList]
  | cons first rest inductionHypothesis =>
      have step : ofList (first :: rest) = insert first (ofList rest) := rfl
      rw [step, mem_insert, inductionHypothesis, List.mem_cons]

end IdSet

end AccessControl
