import AccessControl.Registry.Effective

/-!
# Stored documents

Facts about single documents and about collections whose documents have
identifiers of their own.  A keyed collection has at most one document with a
given object identifier, so it does not matter in which order its documents are
searched: `Keyed.find?_hasId_of_perm`.
-/

namespace AccessControl

namespace Value

theorem id_same_iff {id : ObjectId} {value : Value} :
    same (.id id) value = true ↔ value = .id id := by
  cases value with
  | id other =>
      rw [same_id, beq_iff_eq, Value.id.injEq]
      exact eq_comm
  | _ =>
      simp [same]

theorem same_id_iff {id : ObjectId} {value : Value} :
    same value (.id id) = true ↔ value = .id id := by
  cases value <;> simp [same, asNumber?]

theorem text_same_iff {text : String} {value : Value} :
    same (.text text) value = true ↔ value = .text text := by
  cases value with
  | text other =>
      rw [same_text, beq_iff_eq, Value.text.injEq]
      exact eq_comm
  | _ =>
      simp [same]

theorem same_text_iff {text : String} {value : Value} :
    same value (.text text) = true ↔ value = .text text := by
  cases value <;> simp [same, asNumber?]

/-- Only this very value equals it. -/
structure Sharp (value : Value) : Prop where
  left : ∀ {other}, value.same other = true ↔ other = value
  right : ∀ {other}, same other value = true ↔ other = value

theorem sharp_text (text : String) : (Value.text text).Sharp :=
  ⟨text_same_iff, same_text_iff⟩

theorem sharp_id (id : ObjectId) : (Value.id id).Sharp :=
  ⟨id_same_iff, same_id_iff⟩

end Value

namespace Fields

theorem get?_eq_some_iff_fieldOf
    {document : Fields} {name : String} {value : Value}
    (filled : value ≠ .null) :
    document.get? name = some value ↔
      Registry.fieldOf document name = value := by
  unfold Registry.fieldOf
  cases document.get? name with
  | none =>
      simpa using filled.symm
  | some found =>
      simp

theorem get?_eq_none_iff {fields : Fields} {name : String} :
    fields.get? name = none ↔ name ∉ fields.names := by
  unfold get? names
  rw [List.lookup_eq_none_iff]
  constructor
  · intro absent member
    obtain ⟨field, inFields, rfl⟩ := List.mem_map.mp member
    simpa using absent field inFields
  · intro absent field inFields
    have different : name ≠ field.1 := by
      rintro rfl
      exact absent (List.mem_map_of_mem inFields)
    simpa using different

/-- Where every name stands once, a name has the value that stands beside it. -/
theorem get?_eq_some_iff_mem
    {fields : Fields} (nodup : fields.names.Nodup) {name : String}
    {value : Value} :
    fields.get? name = some value ↔ (name, value) ∈ fields := by
  constructor
  · intro found
    obtain ⟨earlier, later, split, -⟩ := List.lookup_eq_some_iff.mp found
    rw [split]
    simp
  · intro member
    obtain ⟨earlier, later, split⟩ := List.append_of_mem member
    refine List.lookup_eq_some_iff.mpr ⟨earlier, later, split, ?_⟩
    intro field inEarlier
    unfold names at nodup
    rw [split, List.map_append, List.map_cons, List.nodup_append] at nodup
    have different : field.1 ≠ name :=
      nodup.2.2 field.1 (List.mem_map_of_mem inEarlier) name (by simp)
    simpa using different.symm

/-- Fields that the changes do not name keep their values. -/
theorem get?_merge_of_notMem
    {fields changes : Fields} {name : String} (unnamed : name ∉ changes.names) :
    (fields.merge changes).get? name = fields.get? name := by
  induction changes generalizing fields with
  | nil =>
      rfl
  | cons change rest inductionHypothesis =>
      simp only [names, List.map_cons, List.mem_cons, not_or] at unnamed
      have step : fields.merge (change :: rest) =
          (fields.set change.1 change.2).merge rest := rfl
      rw [step, inductionHypothesis unnamed.2, get?_set_of_ne unnamed.1]

/-- A field that the changes name once has the value given there. -/
theorem get?_merge_of_mem
    {fields changes : Fields} {name : String} {value : Value}
    (nodup : changes.names.Nodup) (member : (name, value) ∈ changes) :
    (fields.merge changes).get? name = some value := by
  induction changes generalizing fields with
  | nil =>
      cases member
  | cons change rest inductionHypothesis =>
      have step : fields.merge (change :: rest) =
          (fields.set change.1 change.2).merge rest := rfl
      simp only [names, List.map_cons, List.nodup_cons] at nodup
      rw [step]
      rcases List.mem_cons.mp member with rfl | later
      · rw [get?_merge_of_notMem nodup.1, get?_set_self]
      · exact inductionHypothesis nodup.2 later

/-- A field of a merge is that of the changes, or else what it was. -/
theorem get?_merge
    (fields : Fields) {changes : Fields} (nodup : changes.names.Nodup)
    (name : String) :
    (fields.merge changes).get? name =
      (changes.get? name).or (fields.get? name) := by
  cases held : changes.get? name with
  | none =>
      rw [get?_merge_of_notMem (get?_eq_none_iff.mp held), Option.none_or]
  | some value =>
      rw [get?_merge_of_mem nodup ((get?_eq_some_iff_mem nodup).mp held),
        Option.some_or]

end Fields

namespace Store

variable {α : Type} {passes : α → Bool}

theorem replaceFirst_eq_self
    {items : List α} (absent : items.any passes = false) (change : α → α) :
    replaceFirst passes change items = items := by
  induction items with
  | nil =>
      rfl
  | cons item rest inductionHypothesis =>
      rw [List.any_cons, Bool.or_eq_false_iff] at absent
      unfold replaceFirst
      rw [absent.1, inductionHypothesis absent.2]
      rfl

theorem dropFirst_eq_self
    {items : List α} (absent : items.any passes = false) :
    dropFirst passes items = items := by
  induction items with
  | nil =>
      rfl
  | cons item rest inductionHypothesis =>
      rw [List.any_cons, Bool.or_eq_false_iff] at absent
      unfold dropFirst
      rw [absent.1, inductionHypothesis absent.2]
      rfl

theorem dropFirst_sublist (items : List α) :
    (dropFirst passes items).Sublist items := by
  induction items with
  | nil =>
      exact List.Sublist.refl _
  | cons item rest inductionHypothesis =>
      unfold dropFirst
      split
      · exact List.sublist_cons_self item rest
      · exact inductionHypothesis.cons_cons item

theorem mem_replaceFirst
    {change : α → α} {items : List α} {item : α}
    (member : item ∈ replaceFirst passes change items) :
    item ∈ items ∨ ∃ old ∈ items, item = change old := by
  induction items with
  | nil =>
      cases member
  | cons first rest inductionHypothesis =>
      unfold replaceFirst at member
      split at member
      · rcases List.mem_cons.mp member with rfl | later
        · exact Or.inr ⟨first, by simp, rfl⟩
        · exact Or.inl (List.mem_cons_of_mem _ later)
      · rcases List.mem_cons.mp member with rfl | later
        · exact Or.inl (by simp)
        · rcases inductionHypothesis later with kept | ⟨old, oldMember, rfl⟩
          · exact Or.inl (List.mem_cons_of_mem _ kept)
          · exact Or.inr ⟨old, List.mem_cons_of_mem _ oldMember, rfl⟩

/-- Where the first item that passes stands, and what is changed there. -/
theorem exists_first
    {items : List α} {item : α} (found : items.find? passes = some item) :
    ∃ earlier later,
      items = earlier ++ item :: later ∧ passes item = true ∧
        (∀ other ∈ earlier, passes other = false) ∧
        (∀ change, replaceFirst passes change items =
          earlier ++ change item :: later) ∧
        dropFirst passes items = earlier ++ later := by
  induction items with
  | nil =>
      cases found
  | cons first rest inductionHypothesis =>
      cases passed : passes first with
      | true =>
          rw [List.find?_cons_of_pos passed] at found
          cases found
          refine ⟨[], rest, rfl, passed, by simp, fun change => ?_, ?_⟩
          · simp [replaceFirst, passed]
          · simp [dropFirst, passed]
      | false =>
          rw [List.find?_cons_of_neg (by simp [passed])] at found
          obtain ⟨earlier, later, split, passedItem, missed, replaced,
            dropped⟩ := inductionHypothesis found
          refine ⟨first :: earlier, later, by rw [split]; rfl, passedItem,
            ?_, fun change => ?_, ?_⟩
          · intro other member
            rcases List.mem_cons.mp member with rfl | inEarlier
            · exact passed
            · exact missed other inEarlier
          · simp [replaceFirst, passed, replaced change]
          · simp [dropFirst, passed, dropped]

/-- What is found is what was found before, changed. -/
theorem find?_replaceFirst_self
    {change : α → α} (kept : ∀ item, passes (change item) = passes item)
    (items : List α) :
    (replaceFirst passes change items).find? passes =
      (items.find? passes).map change := by
  induction items with
  | nil =>
      rfl
  | cons item rest inductionHypothesis =>
      cases passed : passes item with
      | true =>
          simp [replaceFirst, passed, kept]
      | false =>
          simp [replaceFirst, passed, inductionHypothesis]

/-- A search for other items does not notice the change. -/
theorem find?_replaceFirst_of_apart
    {sought : α → Bool} {change : α → α}
    (kept : ∀ item, sought (change item) = sought item) {items : List α}
    (apart : ∀ item ∈ items, passes item = true → sought item = false) :
    (replaceFirst passes change items).find? sought = items.find? sought := by
  induction items with
  | nil =>
      rfl
  | cons item rest inductionHypothesis =>
      rw [List.forall_mem_cons] at apart
      cases passed : passes item with
      | true =>
          have missed := apart.1 passed
          simp [replaceFirst, passed, kept, missed]
      | false =>
          simp [replaceFirst, passed, List.find?_cons,
            inductionHypothesis apart.2]

theorem find?_dropFirst_of_apart
    {sought : α → Bool} {items : List α}
    (apart : ∀ item ∈ items, passes item = true → sought item = false) :
    (dropFirst passes items).find? sought = items.find? sought := by
  induction items with
  | nil =>
      rfl
  | cons item rest inductionHypothesis =>
      rw [List.forall_mem_cons] at apart
      cases passed : passes item with
      | true =>
          have missed := apart.1 passed
          simp [dropFirst, passed, missed]
      | false =>
          simp [dropFirst, passed, List.find?_cons,
            inductionHypothesis apart.2]

end Store

/-- The identifiers in a list that holds nothing else. -/
def idItems? : List Value → Option (List ObjectId)
  | [] => some []
  | .id id :: rest => (idItems? rest).map (id :: ·)
  | _ :: _ => none

theorem idItems?_eq_some_iff {items : List Value} {ids : List ObjectId} :
    idItems? items = some ids ↔ items = ids.map .id := by
  induction items generalizing ids with
  | nil =>
      cases ids <;> simp [idItems?]
  | cons item rest inductionHypothesis =>
      cases item with
      | id id =>
          cases ids with
          | nil =>
              simp [idItems?]
          | cons first others =>
              simp only [idItems?, Option.map_eq_some_iff, List.cons.injEq,
                List.map_cons, Value.id.injEq, inductionHypothesis]
              constructor
              · rintro ⟨found, listed, rfl, rfl⟩
                exact ⟨rfl, listed⟩
              · rintro ⟨rfl, listed⟩
                exact ⟨others, listed, rfl, rfl⟩
      | _ =>
          cases ids <;> simp [idItems?]

namespace Fields

/-- The identifiers that a field lists, none of them where it is missing or null;
no answer where it holds anything else than a list of identifiers. -/
def listed? (document : Fields) (name : String) : Option (List ObjectId) :=
  match document.get? name with
  | none => some []
  | some .null => some []
  | some (.list items) => idItems? items
  | some _ => none

/-- The identifiers that a field lists. -/
def listed (document : Fields) (name : String) : List ObjectId :=
  (document.listed? name).getD []

/-- The field is missing, null, or a list of identifiers. -/
def Lists (document : Fields) (name : String) : Prop :=
  (document.listed? name).isSome = true

instance (document : Fields) (name : String) :
    Decidable (document.Lists name) :=
  inferInstanceAs (Decidable (_ = true))

theorem listed_of_get?_list
    {document : Fields} {name : String} {ids : List ObjectId}
    (found : document.get? name = some (.list (ids.map .id))) :
    document.listed? name = some ids := by
  unfold listed?
  rw [found]
  exact idItems?_eq_some_iff.mpr rfl

theorem lists_of_listed?
    {document : Fields} {name : String} {ids : List ObjectId}
    (read : document.listed? name = some ids) :
    document.Lists name ∧ document.listed name = ids := by
  unfold Lists listed
  rw [read]
  exact ⟨rfl, rfl⟩

theorem Lists.listed?_eq
    {document : Fields} {name : String} (lists : document.Lists name) :
    document.listed? name = some (document.listed name) := by
  obtain ⟨ids, read⟩ := Option.isSome_iff_exists.mp lists
  unfold listed
  rw [read]
  rfl

/-- A field that lists identifiers is missing, null, or a list of just them. -/
theorem Lists.get?_cases
    {document : Fields} {name : String} (lists : document.Lists name) :
    (document.get? name).getD .null = .null ∧ document.listed name = [] ∨
      document.get? name =
        some (.list ((document.listed name).map .id)) := by
  unfold Lists listed listed? at *
  split at lists
  · rename_i found
    simp [found]
  · rename_i found
    simp [found]
  · rename_i items found
    obtain ⟨ids, read⟩ := Option.isSome_iff_exists.mp lists
    right
    simp only [read, Option.getD_some]
    rw [found, idItems?_eq_some_iff.mp read]
  · cases lists

end Fields

/-! ## Edits of lists -/

namespace Fields

variable {document : Fields} {name : String}

theorem Lists.held_eq (lists : document.Lists name) :
    ArrayEdit.held document name = (document.listed name).map .id := by
  unfold ArrayEdit.held
  rcases lists.get?_cases with ⟨missing, empty⟩ | found
  · rw [empty]
    cases held : document.get? name with
    | none =>
        rfl
    | some value =>
        rw [held, Option.getD_some] at missing
        rw [missing]
        rfl
  · rw [found]

theorem any_same_iff_mem {items : List Value} {id : ObjectId} :
    items.any (Value.id id).same = true ↔ Value.id id ∈ items := by
  rw [List.any_eq_true]
  constructor
  · rintro ⟨item, member, equal⟩
    rw [Value.id_same_iff] at equal
    exact equal ▸ member
  · intro member
    exact ⟨.id id, member, Value.id_same_iff.mpr rfl⟩

theorem any_same_id_iff {ids : List ObjectId} {id : ObjectId} :
    (ids.map Value.id).any (Value.id id).same = true ↔ id ∈ ids := by
  rw [any_same_iff_mem]
  simp

theorem Lists.admits_iff (lists : document.Lists name) (id : ObjectId) :
    Filter.admits [(name, .equals (.id id))] document = true ↔
      id ∈ document.listed name := by
  have asked :
      Filter.admits [(name, .equals (.id id))] document =
        FieldTest.agrees ((document.get? name).getD .null) (.id id) := by
    simp [Filter.admits, FieldTest.passes]
  rw [asked]
  unfold FieldTest.agrees
  rcases lists.get?_cases with ⟨missing, empty⟩ | found
  · rw [missing, empty]
    simp [Value.id_same_iff]
  · have unequal (items : List Value) :
        (Value.id id).same (.list items) = false := by
      simp [Value.same]
    rw [found, Option.getD_some, unequal, Bool.false_or, any_same_id_iff]

/-- Adding an identifier puts it at the end, unless it is listed. -/
theorem Lists.listed?_addToSet (lists : document.Lists name) (id : ObjectId) :
    ((ArrayEdit.addToSet name (.id id)).apply document).listed? name =
      some (if id ∈ document.listed name then document.listed name
        else document.listed name ++ [id]) := by
  simp only [ArrayEdit.apply, lists.held_eq]
  by_cases already : id ∈ document.listed name
  · rw [if_pos (any_same_id_iff.mpr already), if_pos already]
    exact lists.listed?_eq
  · rw [if_neg (mt any_same_id_iff.mp already), if_neg already]
    apply listed_of_get?_list
    rw [get?_set_self]
    simp

/-- Taking an identifier out leaves the other ones in their order. -/
theorem Lists.listed?_pull (lists : document.Lists name) (id : ObjectId) :
    ((ArrayEdit.pull name (.id id)).apply document).listed? name =
      some ((document.listed name).filter (· ≠ id)) := by
  rcases lists.get?_cases with ⟨missing, empty⟩ | found
  · have unchanged :
        (ArrayEdit.pull name (.id id)).apply document = document := by
      cases held : document.get? name with
      | none =>
          simp only [ArrayEdit.apply, held]
      | some value =>
          rw [held, Option.getD_some] at missing
          simp only [ArrayEdit.apply, held, missing]
    rw [unchanged, lists.listed?_eq, empty]
    rfl
  · simp only [ArrayEdit.apply, found]
    apply listed_of_get?_list
    rw [get?_set_self, List.filter_map]
    congr 3
    apply List.filter_congr
    intro other member
    have compared : (Value.id id).same (.id other) = (id == other) :=
      Value.same_id id other
    rw [Function.comp_apply, compared, Bool.eq_iff_iff, decide_eq_true_iff,
      Bool.not_eq_true', beq_eq_false_iff_ne]
    exact ne_comm

/-- No two documents have the same value in this field. -/
def Apart (name : String) (documents : List Fields) : Prop :=
  (documents.filterMap (get? · name)).Pairwise
    fun first second => first.same second = false

instance (name : String) (documents : List Fields) :
    Decidable (Apart name documents) :=
  inferInstanceAs (Decidable (List.Pairwise _ _))

namespace Apart

variable {name : String} {earlier later : List Fields}

theorem of_sublist
    {documents others : List Fields}
    (apart : Apart name documents) (fewer : others.Sublist documents) :
    Apart name others :=
  List.Pairwise.sublist (fewer.filterMap _) apart

/-- The document in the middle is the only one that has its value. -/
theorem get?_ne
    {document : Fields} {value : Value}
    (apart : Apart name (earlier ++ document :: later))
    (found : document.get? name = some value) (sharp : value.Sharp) :
    ∀ other ∈ earlier ++ later, other.get? name ≠ some value := by
  have equal : value.same value = true := sharp.left.mpr rfl
  intro other member held
  have pairs := List.pairwise_append.mp (List.pairwise_filterMap.mp apart)
  have different : value.same value = false := by
    rcases List.mem_append.mp member with before | after
    · exact pairs.2.2 other before document (by simp) value held value found
    · have following := List.pairwise_cons.mp pairs.2.1
      exact following.1 other after value found value held
  rw [equal] at different
  cases different

/-- At most one document has the value. -/
theorem eq_of_get?_eq
    {documents : List Fields} {first second : Fields} {value : Value}
    (apart : Apart name documents) (member : first ∈ documents)
    (otherMember : second ∈ documents) (held : first.get? name = some value)
    (otherHeld : second.get? name = some value) (sharp : value.Sharp) :
    first = second := by
  obtain ⟨before, after, rfl⟩ := List.append_of_mem member
  have only := apart.get?_ne held sharp
  rcases List.mem_append.mp otherMember with isBefore | others
  · exact absurd otherHeld (only second (List.mem_append_left _ isBefore))
  · rcases List.mem_cons.mp others with same | isAfter
    · exact same.symm
    · exact absurd otherHeld (only second (List.mem_append_right _ isAfter))

theorem insert
    {document : Fields} {value : Value}
    (apart : Apart name (earlier ++ later))
    (found : document.get? name = some value) (sharp : value.Sharp)
    (others : ∀ other ∈ earlier ++ later, other.get? name ≠ some value) :
    Apart name (earlier ++ document :: later) := by
  have different {other : Fields} {held : Value}
      (member : other ∈ earlier ++ later) (has : other.get? name = some held) :
      held ≠ value := by
    rintro rfl
    exact others other member has
  unfold Apart at *
  rw [List.pairwise_filterMap] at *
  have pairs := List.pairwise_append.mp apart
  refine List.pairwise_append.mpr
    ⟨pairs.1, List.pairwise_cons.mpr ⟨?_, pairs.2.1⟩, ?_⟩
  · intro other member first firstHeld second secondHeld
    rw [found] at firstHeld
    cases firstHeld
    rw [← Bool.not_eq_true, sharp.left]
    exact different (List.mem_append_right _ member) secondHeld
  · intro before beforeMember other member first firstHeld second secondHeld
    rcases List.mem_cons.mp member with rfl | after
    · rw [found] at secondHeld
      cases secondHeld
      rw [← Bool.not_eq_true, sharp.right]
      exact different (List.mem_append_left _ beforeMember) firstHeld
    · exact pairs.2.2 before beforeMember other after first firstHeld second
        secondHeld

theorem append
    {documents : List Fields} {document : Fields} {value : Value}
    (apart : Apart name documents) (found : document.get? name = some value)
    (sharp : value.Sharp)
    (others : ∀ other ∈ documents, other.get? name ≠ some value) :
    Apart name (documents ++ [document]) := by
  rw [← List.append_nil documents] at apart others
  exact apart.insert found sharp others

/-- It does not matter what else the documents hold. -/
theorem of_get?_eq
    {document changed : Fields}
    (apart : Apart name (earlier ++ document :: later))
    (same : changed.get? name = document.get? name) :
    Apart name (earlier ++ changed :: later) := by
  unfold Apart at *
  simpa [List.filterMap_append, List.filterMap_cons, same] using apart

end Apart

end Fields

/-! ## Documents with an identifier -/

/-- The identifier whose bytes are zero but for the last one. -/
def ObjectId.numbered (last : UInt8) : ObjectId :=
  ⟨[0, 0, 0, 0, 0, 0, 0, 0, 0, 0, 0, last], rfl⟩

/-- Whether the document has this object identifier. -/
def hasId (id : ObjectId) (document : Fields) : Bool :=
  (Value.id id).same (Registry.fieldOf document "_id")

theorem hasId_iff {id : ObjectId} {document : Fields} :
    hasId id document = true ↔ document.get? "_id" = some (.id id) := by
  unfold hasId
  rw [Value.id_same_iff, Fields.get?_eq_some_iff_fieldOf (by simp)]

theorem hasId_of_get?_eq
    {first second : Fields} (same : first.get? "_id" = second.get? "_id")
    (id : ObjectId) : hasId id first = hasId id second := by
  rw [Bool.eq_iff_iff, hasId_iff, hasId_iff, same]

/-- Every document that has the identifier passes the filter for it. -/
theorem admits_byId_of_hasId
    {id : ObjectId} {document : Fields} (has : hasId id document = true) :
    (Filter.byId id).admits document = true := by
  have found := hasId_iff.mp has
  simp [Filter.admits, Filter.byId, FieldTest.passes, FieldTest.agrees, found,
    Value.same_id]

/-- Whether the identifier of the document is no array. -/
def plainId (document : Fields) : Bool :=
  match document.get? "_id" with
  | some (.list _) => false
  | _ => true

/-- What a document store keeps of every collection: no identifier is an array, and
no two documents have the same identifier. -/
structure Keyed (documents : List Fields) : Prop where
  plain : ∀ document ∈ documents, plainId document = true
  distinct : Fields.Apart "_id" documents

instance (documents : List Fields) : Decidable (Keyed documents) :=
  decidable_of_iff
    ((∀ document ∈ documents, plainId document = true) ∧
      Fields.Apart "_id" documents)
    ⟨fun held => ⟨held.1, held.2⟩, fun keyed => ⟨keyed.plain, keyed.distinct⟩⟩

namespace Keyed

variable {documents : List Fields}

theorem admits_byId_iff
    (keyed : Keyed documents) {document : Fields}
    (member : document ∈ documents) {id : ObjectId} :
    (Filter.byId id).admits document = true ↔ hasId id document = true := by
  constructor
  · intro admitted
    have agrees :
        FieldTest.agrees ((document.get? "_id").getD .null) (.id id) =
          true := by
      simpa [Filter.admits, Filter.byId, FieldTest.passes] using admitted
    unfold FieldTest.agrees at agrees
    rcases Bool.or_eq_true_iff.mp agrees with same | held
    · exact same
    · have plain := keyed.plain document member
      unfold plainId at plain
      cases found : document.get? "_id" with
      | none =>
          simp [found] at held
      | some value =>
          cases value with
          | list items =>
              simp [found] at plain
          | _ =>
              simp [found] at held
  · exact admits_byId_of_hasId

/-- At most one document has the identifier. -/
theorem length_filter_hasId_le_one
    (keyed : Keyed documents) (id : ObjectId) :
    (documents.filter (hasId id)).length ≤ 1 := by
  have apart := (List.pairwise_filterMap.mp keyed.distinct).filter (hasId id)
  have members :
      ∀ document ∈ documents.filter (hasId id),
        document.get? "_id" = some (.id id) := by
    intro document member
    exact hasId_iff.mp (List.mem_filter.mp member).2
  cases found : documents.filter (hasId id) with
  | nil =>
      simp
  | cons first rest =>
      cases rest with
      | nil =>
          simp
      | cons second others =>
          rw [found] at apart members
          have different :=
            (List.pairwise_cons.mp apart).1 second (by simp)
              (.id id) (members first (by simp))
              (.id id) (members second (by simp))
          rw [Value.same_id] at different
          simp at different

/-- The order of the documents does not matter to a search by identifier. -/
theorem find?_hasId_of_perm
    (keyed : Keyed documents) {others : List Fields}
    (rearranged : others.Perm documents) (id : ObjectId) :
    others.find? (hasId id) = documents.find? (hasId id) := by
  have kept := rearranged.filter (hasId id)
  have few := keyed.length_filter_hasId_le_one id
  rw [← List.head?_filter, ← List.head?_filter]
  cases found : documents.filter (hasId id) with
  | nil =>
      rw [found] at kept
      rw [kept.eq_nil]
  | cons first rest =>
      rw [found] at kept few
      have alone : rest = [] := by
        cases rest with
        | nil =>
            rfl
        | cons second others =>
            simp at few
      rw [alone] at kept ⊢
      rw [kept.eq_singleton]

/-- In whatever order the documents are searched, the filter for an identifier finds
the document that has it. -/
theorem find?_byId_of_perm
    (keyed : Keyed documents) {others : List Fields}
    (rearranged : others.Perm documents) (id : ObjectId) :
    others.find? (Filter.byId id).admits = documents.find? (hasId id) := by
  have agree :
      ∀ document ∈ others,
        (Filter.byId id).admits document = hasId id document := by
    intro document member
    exact Bool.eq_iff_iff.mpr
      (keyed.admits_byId_iff (rearranged.mem_iff.mp member))
  rw [← keyed.find?_hasId_of_perm rearranged, ← List.head?_filter,
    ← List.head?_filter, List.filter_congr agree]

theorem of_sublist
    (keyed : Keyed documents) {fewer : List Fields}
    (sublist : fewer.Sublist documents) :
    Keyed fewer :=
  ⟨fun document member => keyed.plain document (sublist.subset member),
    keyed.distinct.of_sublist sublist⟩

/-- A document is added whose identifier nobody has. -/
theorem append
    (keyed : Keyed documents) {document : Fields} {id : ObjectId}
    (identified : document.get? "_id" = some (.id id))
    (fresh : ∀ other ∈ documents, other.get? "_id" ≠ some (.id id)) :
    Keyed (documents ++ [document]) := by
  constructor
  · intro other member
    rcases List.mem_append.mp member with old | new
    · exact keyed.plain other old
    · rw [List.mem_singleton.mp new]
      simp [plainId, identified]
  · exact keyed.distinct.append identified (Value.sharp_id id) fresh

/-- A document is changed that keeps its identifier. -/
theorem of_get?_eq
    {earlier later : List Fields} {document changed : Fields}
    (keyed : Keyed (earlier ++ document :: later))
    (same : changed.get? "_id" = document.get? "_id") :
    Keyed (earlier ++ changed :: later) := by
  refine ⟨?_, keyed.distinct.of_get?_eq same⟩
  intro other member
  rcases List.mem_append.mp member with before | after
  · exact keyed.plain other (List.mem_append_left _ before)
  · rcases List.mem_cons.mp after with rfl | rest
    · have plain := keyed.plain document (by simp)
      unfold plainId at plain ⊢
      rw [same]
      exact plain
    · exact keyed.plain other (by simp [rest])

/-- A document is renamed, and nobody else has the new name. -/
theorem apart_renamed
    {earlier later : List Fields} {current changed : Fields} {id : ObjectId}
    {name : String} (keyed : Keyed (earlier ++ current :: later))
    (apart : Fields.Apart "name" (earlier ++ current :: later))
    (has : hasId id current = true)
    (called : changed.get? "name" = some (.text name))
    (mine :
      ∀ document ∈ earlier ++ current :: later,
        document.get? "name" = some (.text name) →
          hasId id document = true) :
    Fields.Apart "name" (earlier ++ changed :: later) := by
  have fewer : (earlier ++ later).Sublist (earlier ++ current :: later) :=
    (List.sublist_cons_self current later).append_left earlier
  apply (apart.of_sublist fewer).insert called (Value.sharp_text name)
  intro other member alike
  have alsoHas := mine other (fewer.subset member) alike
  exact
    keyed.distinct.get?_ne (hasId_iff.mp has) (Value.sharp_id id) other member
      (hasId_iff.mp alsoHas)

theorem replaceFirst
    (keyed : Keyed documents) {change : Fields → Fields}
    (kept : ∀ document, (change document).get? "_id" = document.get? "_id")
    (passes : Fields → Bool) :
    Keyed (Store.replaceFirst passes change documents) := by
  cases found : documents.find? passes with
  | none =>
      have absent : documents.any passes = false := by
        rw [List.any_eq_false]
        exact List.find?_eq_none.mp found
      rw [Store.replaceFirst_eq_self absent]
      exact keyed
  | some document =>
      obtain ⟨earlier, later, split, -, -, replaced, -⟩ :=
        Store.exists_first found
      rw [replaced]
      rw [split] at keyed
      exact keyed.of_get?_eq (kept document)

/-- Who passes the filter for one identifier passes none for another one. -/
theorem not_admits_byId_of_ne
    (keyed : Keyed documents) {id other : ObjectId} (different : other ≠ id)
    {document : Fields} (member : document ∈ documents)
    (admitted : (Filter.byId id).admits document = true) :
    (Filter.byId other).admits document = false := by
  rw [← Bool.not_eq_true]
  intro alsoAdmitted
  have has := hasId_iff.mp ((keyed.admits_byId_iff member).mp admitted)
  have hasOther :=
    hasId_iff.mp ((keyed.admits_byId_iff member).mp alsoAdmitted)
  rw [has] at hasOther
  cases hasOther
  exact different rfl

theorem find?_byId_append
    (keyed : Keyed documents) {document : Fields} {id : ObjectId}
    (identified : document.get? "_id" = some (.id id))
    (fresh : ∀ other ∈ documents, hasId id other = false)
    (other : ObjectId) :
    (documents ++ [document]).find? (Filter.byId other).admits =
      if id = other then some document
      else documents.find? (Filter.byId other).admits := by
  have admits :
      (Filter.byId other).admits document = decide (id = other) := by
    simp [Filter.admits, Filter.byId, FieldTest.passes, FieldTest.agrees,
      identified, Value.same_id, eq_comm, Bool.beq_eq_decide_eq]
  rw [List.find?_append]
  by_cases same : id = other
  · subst same
    have absent : documents.find? (Filter.byId id).admits = none := by
      rw [List.find?_eq_none]
      intro held member admitted
      rw [keyed.admits_byId_iff member, fresh held member] at admitted
      cases admitted
    rw [absent, if_pos rfl]
    simp [admits]
  · rw [if_neg same]
    simp [admits, same]

theorem find?_byId_replaceFirst
    (keyed : Keyed documents) {change : Fields → Fields}
    (kept : ∀ document, (change document).get? "_id" = document.get? "_id")
    (id other : ObjectId) :
    (Store.replaceFirst (Filter.byId id).admits change documents).find?
        (Filter.byId other).admits =
      if id = other then
        (documents.find? (Filter.byId other).admits).map change
      else documents.find? (Filter.byId other).admits := by
  have admits (sought : ObjectId) (document : Fields) :
      (Filter.byId sought).admits (change document) =
        (Filter.byId sought).admits document := by
    simp only [Filter.admits, Filter.byId, List.all_cons, List.all_nil, kept]
  by_cases same : id = other
  · subst same
    rw [if_pos rfl]
    exact Store.find?_replaceFirst_self (admits id) documents
  · rw [if_neg same]
    exact Store.find?_replaceFirst_of_apart (admits other)
      fun document member =>
        keyed.not_admits_byId_of_ne (Ne.symm same) member

theorem find?_byId_dropFirst
    (keyed : Keyed documents) (id other : ObjectId) :
    (Store.dropFirst (Filter.byId id).admits documents).find?
        (Filter.byId other).admits =
      if id = other then none
      else documents.find? (Filter.byId other).admits := by
  by_cases same : id = other
  · subst same
    rw [if_pos rfl, List.find?_eq_none]
    intro left member admitted
    cases found : documents.find? (Filter.byId id).admits with
    | none =>
        have absent : documents.any (Filter.byId id).admits = false := by
          rw [List.any_eq_false]
          exact List.find?_eq_none.mp found
        rw [Store.dropFirst_eq_self absent] at member
        exact List.find?_eq_none.mp found left member admitted
    | some document =>
        obtain ⟨earlier, later, split, admittedFirst, -, -, dropped⟩ :=
          Store.exists_first found
        rw [dropped] at member
        have fewer : (earlier ++ later).Sublist documents := by
          rw [split]
          exact (List.sublist_cons_self document later).append_left earlier
        have leftMember := fewer.subset member
        have has :=
          hasId_iff.mp ((keyed.admits_byId_iff leftMember).mp admitted)
        have hasFirst :=
          hasId_iff.mp
            ((keyed.admits_byId_iff
              (List.mem_of_find?_eq_some found)).mp admittedFirst)
        have apart : Fields.Apart "_id" (earlier ++ document :: later) :=
          split ▸ keyed.distinct
        exact
          apart.get?_ne hasFirst (Value.sharp_id id) left member has
  · rw [if_neg same]
    exact Store.find?_dropFirst_of_apart fun document member =>
      keyed.not_admits_byId_of_ne (Ne.symm same) member

end Keyed

namespace Filter

/-- The filter finds every document with this name, except perhaps one with this
identifier. -/
def Seeks (filter : Filter) (id : ObjectId) (name : String) : Prop :=
  ∀ document, plainId document = true →
    document.get? "name" = some (.text name) →
    hasId id document = false → filter.admits document = true

theorem seeks_everywhere (id : ObjectId) (name : String) :
    Seeks [("name", .equals (.text name))] id name := by
  intro document _ called _
  simp [Filter.admits, FieldTest.passes, FieldTest.agrees, called,
    Value.same_text]

theorem seeks_elsewhere (id : ObjectId) (name : String) :
    Seeks
      [("name", .equals (.text name)), ("_id", .differs (.id id))] id
      name := by
  intro document plain called other
  have disagrees :
      FieldTest.agrees ((document.get? "_id").getD .null) (.id id) =
        false := by
    unfold hasId Registry.fieldOf at other
    unfold FieldTest.agrees
    rw [other, Bool.false_or]
    unfold plainId at plain
    cases found : document.get? "_id" with
    | none =>
        rfl
    | some value =>
        cases value with
        | list items =>
            rw [found] at plain
            cases plain
        | _ =>
            rfl
  simp [Filter.admits, FieldTest.passes, disagrees, called]
  simp [FieldTest.agrees, Value.same_text]

/-- When the search finds nothing, only the document with this identifier can have the
name. -/
theorem Seeks.hasId_of_find?_eq_none
    {filter : Filter} {id : ObjectId} {name : String}
    {documents : List Fields} (seeks : filter.Seeks id name)
    (keyed : Keyed documents)
    (missed : documents.find? filter.admits = none) {document : Fields}
    (member : document ∈ documents)
    (called : document.get? "name" = some (.text name)) :
    hasId id document = true := by
  cases has : hasId id document with
  | true =>
      rfl
  | false =>
      have admitted :=
        seeks document (keyed.plain document member) called has
      exact absurd admitted (List.find?_eq_none.mp missed document member)

end Filter

end AccessControl
