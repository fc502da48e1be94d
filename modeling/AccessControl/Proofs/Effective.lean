import AccessControl.Proofs.Holdings
import Mathlib.Data.List.Basic

/-!
# The order of effective policies

The policies that count for a principal are read off the documents of its
tenant: its own identifiers in their order, then those of its groups in the
order of the groups, each replaced by the valid policy of the document with that
identifier.  `effective_of_rearranged` says that this list is loaded whatever
the order in which the store returns documents.
-/

namespace AccessControl

/-! ## The list that is meant -/

namespace Holdings

/-- The policy identifiers that a document inherits from its groups. -/
def inheritedIds (holdings : Holdings) (document : Fields) : List ObjectId :=
  (document.listed "groups").flatMap fun group =>
    match holdings.groups.find? (hasId group) with
    | some found => found.listed "policies"
    | none => []

/-- The policy identifiers that count for a principal. -/
def effectiveIds (holdings : Holdings) (principal : ObjectId) :
    List ObjectId :=
  match holdings.principals.find? (hasId principal) with
  | some document =>
      document.listed "policies" ++ holdings.inheritedIds document
  | none => []

/-- The valid policy of the document with this identifier. -/
def policy? (holdings : Holdings) (id : ObjectId) : Option Policy :=
  (holdings.policies.find? (hasId id)).bind fun document =>
    (Policy.ofFields document).toOption

/-- The policies that count for a principal. -/
def effectivePolicies (holdings : Holdings) (principal : ObjectId) :
    List Policy :=
  (holdings.effectiveIds principal).filterMap holdings.policy?

/-- All three collections are keyed. -/
structure Keyed (holdings : Holdings) : Prop where
  policies : AccessControl.Keyed holdings.policies
  principals : AccessControl.Keyed holdings.principals
  groups : AccessControl.Keyed holdings.groups

/-- Principals list identifiers of policies and groups, and groups identifiers of
policies. -/
structure ListsIds (holdings : Holdings) : Prop where
  own : ∀ document ∈ holdings.principals, document.Lists "policies"
  groups : ∀ document ∈ holdings.principals, document.Lists "groups"
  inherited : ∀ document ∈ holdings.groups, document.Lists "policies"

end Holdings

/-- Every collection has the same documents in both stores, in any order. -/
def Store.Rearranged (first second : Store) : Prop :=
  ∀ name, (first.documents name).Perm (second.documents name)

/-- Somebody rearranges the documents of the store between commands, and does nothing
else. -/
def Program.Rearranges (interfere : Command → Store → Store) : Prop :=
  ∀ command store, (interfere command store).Rearranged store

theorem Store.Rearranged.of_read
    {interfere : Command → Store → Store}
    (rearranges : Program.Rearranges interfere)
    {deed : Deed} (reads : deed.Reads) (collection : String)
    {store start : Store} (rearranged : store.Rearranged start) :
    ((interfere ⟨collection, deed⟩ store).execute
      ⟨collection, deed⟩).Rearranged start := by
  intro name
  rw [Store.execute_same_of_reads reads]
  exact (rearranges _ store name).trans (rearranged name)

namespace Registry

theorem entries_of_lists
    {document : Fields} {name : String} (lists : document.Lists name) :
    (fieldOf document name).entries =
      .ok ((document.listed name).map .id) := by
  unfold fieldOf
  rcases lists.get?_cases with ⟨missing, empty⟩ | found
  · rw [missing, empty]
    rfl
  · rw [found, Option.getD_some]
    cases document.listed name with
    | nil =>
        rfl
    | cons id rest =>
        rfl

/-- An identifier is found again among the distinct items, as it equals nothing else. -/
theorem mem_distinct_of_id {values : List Value} {id : ObjectId}
    (member : Value.id id ∈ values) :
    Value.id id ∈ Value.distinct values := by
  have kept_or_later (items kept : List Value) :
      Value.id id ∈ kept ∨ Value.id id ∈ items →
        Value.id id ∈
          items.foldl
            (fun kept item =>
              if kept.any item.same then kept else kept ++ [item]) kept := by
    induction items generalizing kept with
    | nil =>
        intro known
        simpa using known
    | cons first rest inductionHypothesis =>
        intro known
        rw [List.foldl_cons]
        apply inductionHypothesis
        by_cases already : kept.any first.same = true
        · rw [if_pos already]
          rcases known with inKept | inItems
          · exact Or.inl inKept
          · rcases List.mem_cons.mp inItems with rfl | inRest
            · obtain ⟨value, valueMember, equal⟩ :=
                List.any_eq_true.mp already
              rw [Value.id_same_iff] at equal
              exact Or.inl (equal ▸ valueMember)
            · exact Or.inr inRest
        · rw [if_neg already]
          rcases known with inKept | inItems
          · exact Or.inl (List.mem_append_left _ inKept)
          · rcases List.mem_cons.mp inItems with rfl | inRest
            · exact Or.inl (by simp)
            · exact Or.inr inRest
  exact kept_or_later values [] (Or.inr member)

theorem mem_distinct_ids {ids : List ObjectId} {id : ObjectId}
    (member : id ∈ ids) :
    Value.id id ∈ Value.distinct (ids.map .id) :=
  mem_distinct_of_id (List.mem_map_of_mem member)

/-- Among the documents that were fetched for some identifiers, in whatever order,
the one with such an identifier is the only one that the collection has. -/
theorem documentOf_fetched
    {documents others : List Fields} (keyed : Keyed documents)
    (rearranged : others.Perm documents)
    {values : List Value} {id : ObjectId} (member : Value.id id ∈ values) :
    documentOf (others.filter (Filter.admits [("_id", .oneOf values)]))
        (.id id) =
      documents.find? (hasId id) := by
  have searched (found : List Fields) :
      documentOf found (.id id) = found.reverse.find? (hasId id) := rfl
  have admitted (document : Fields) :
      hasId id document = true →
        Filter.admits [("_id", .oneOf values)] document = true := by
    intro has
    have held := hasId_iff.mp has
    simp only [Filter.admits, List.all_cons, List.all_nil, Bool.and_true,
      FieldTest.passes, held, Option.getD_some]
    refine List.any_eq_true.mpr ⟨.id id, member, ?_⟩
    simp [FieldTest.agrees, Value.same_id]
  have together (document : Fields) :
      (Filter.admits [("_id", .oneOf values)] document &&
        hasId id document) = hasId id document := by
    cases has : hasId id document with
    | false =>
        simp
    | true =>
        simp [admitted document has]
  rw [searched, ← List.filter_reverse, List.find?_filter]
  simp only [Bool.decide_and, Bool.decide_eq_true, together]
  exact keyed.find?_hasId_of_perm
    ((List.reverse_perm others).trans rearranged) id

/-- The valid policies with these names among the documents that were fetched, in the
order of the names. -/
def validAmong (found : List Fields) (names : List Value) : List Policy :=
  names.filterMap fun name =>
    (documentOf found name).bind fun document =>
      (Policy.ofFields document).toOption

/-! ## The steps of loading -/

section Loading

variable {tenant : Tenant} {interfere : Command → Store → Store}

theorem finish_gather
    {documents found : List Fields}
    (lists : ∀ document ∈ documents, document.Lists "policies")
    {groups : List ObjectId}
    (looked : ∀ group ∈ groups,
      documentOf found (.id group) = documents.find? (hasId group))
    (store : Store) :
    Program.finish interfere
        (gather tenant.unit found (groups.map .id)) store =
      (.ok ((groups.flatMap fun group =>
        match documents.find? (hasId group) with
        | some document => document.listed "policies"
        | none => []).map .id), store) := by
  induction groups with
  | nil =>
      rfl
  | cons group rest inductionHypothesis =>
      have tail := inductionHypothesis fun group member =>
        looked group (List.mem_cons_of_mem _ member)
      have key : (Value.id group).isKey = true := rfl
      rw [List.map_cons, gather, looked group (by simp), key]
      rw [List.flatMap_cons, List.map_append]
      cases held : documents.find? (hasId group) with
      | none =>
          exact tail
      | some document =>
          have listed := lists document (List.mem_of_find?_eq_some held)
          simp only [Bool.not_true, Bool.false_eq_true, if_false,
            Program.finish_bind, Program.finish_pure,
            Program.finish_ofExcept, entries_of_lists listed, tail]

/-- What is valid among the documents that were fetched is given in the order of the
names. -/
theorem finish_valid_among
    (found : List Fields) (names : List Value) (store : Store) :
    Program.finish interfere (valid found names) store =
      (.ok (validAmong found names), store) := by
  induction names with
  | nil =>
      rfl
  | cons name rest inductionHypothesis =>
      unfold validAmong at inductionHypothesis ⊢
      rw [valid, List.filterMap_cons]
      cases documentOf found name with
      | none =>
          exact inductionHypothesis
      | some document =>
          simp only [Option.bind_some]
          cases Policy.ofFields document with
          | error issues =>
              exact inductionHypothesis
          | ok policy =>
              simp only [Program.finish_bind, inductionHypothesis,
                Program.finish_pure]
              rfl

theorem finish_valid
    {documents found : List Fields} {ids : List ObjectId}
    (looked : ∀ id ∈ ids,
      documentOf found (.id id) = documents.find? (hasId id))
    (store : Store) :
    Program.finish interfere (valid found (ids.map .id)) store =
      (.ok (ids.filterMap fun id =>
        (documents.find? (hasId id)).bind fun document =>
          (Policy.ofFields document).toOption), store) := by
  have same :
      validAmong found (ids.map .id) =
        ids.filterMap fun id =>
          (documents.find? (hasId id)).bind fun document =>
            (Policy.ofFields document).toOption := by
    unfold validAmong
    rw [List.filterMap_map]
    refine List.filterMap_congr fun id member => ?_
    rw [Function.comp_apply, looked id member]
  rw [finish_valid_among, same]

/-- The documents that are fetched are those that the collection has, in some
order. -/
theorem finish_fetch
    (rearranges : Program.Rearranges interfere)
    {store start : Store} (rearranged : store.Rearranged start)
    (collection : String) (values : List Value) :
    ∃ (others : List Fields) (left : Store),
      others.Perm (start.documents collection) ∧ left.Rearranged start ∧
        Program.finish interfere (fetch collection values) store =
          (.ok (others.filter (Filter.admits [("_id", .oneOf values)])),
            left) := by
  refine ⟨_, _, ?_, ?_, Program.finish_query interfere collection _ store⟩
  · exact (rearranges _ store collection).trans (rearranged collection)
  · exact rearranged.of_read rearranges (Deed.reads_find _) collection

/-- The document with an identifier is found wherever it stands. -/
theorem finish_findOne
    (rearranges : Program.Rearranges interfere)
    {store start : Store} (rearranged : store.Rearranged start)
    {collection : String} (keyed : Keyed (start.documents collection))
    (id : ObjectId) :
    ∃ left,
      left.Rearranged start ∧
        Program.finish interfere
            (Program.query collection (.findOne (Filter.byId id))) store =
          (.ok ((start.documents collection).find? (hasId id)), left) := by
  have sameDocuments :=
    (rearranges ⟨collection, .findOne (Filter.byId id)⟩ store collection).trans
      (rearranged collection)
  have kept :=
    rearranged.of_read rearranges (Deed.reads_findOne (Filter.byId id))
      collection
  refine ⟨_, kept, ?_⟩
  rw [Program.finish_query, ← keyed.find?_byId_of_perm sameDocuments]
  rfl

theorem finish_groupPolicyIds
    (rearranges : Program.Rearranges interfere)
    {store start : Store} (rearranged : store.Rearranged start)
    (keyed : Keyed (tenant.holdings start).groups)
    (inherited :
      ∀ document ∈ (tenant.holdings start).groups, document.Lists "policies")
    {document : Fields} (lists : document.Lists "groups") :
    ∃ left,
      left.Rearranged start ∧
        Program.finish interfere
            (groupPolicyIds tenant (fieldOf document "groups")) store =
          (.ok (((tenant.holdings start).inheritedIds document).map .id),
            left) := by
  have entries := entries_of_lists lists
  unfold groupPolicyIds Holdings.inheritedIds
  cases listed : document.listed "groups" with
  | nil =>
      have empty : (fieldOf document "groups").isTruthy = false := by
        unfold fieldOf
        rcases lists.get?_cases with ⟨missing, -⟩ | found
        · rw [missing]
          rfl
        · rw [found, listed]
          rfl
      rw [empty]
      exact ⟨store, rearranged, rfl⟩
  | cons first rest =>
      have held :
          fieldOf document "groups" = .list ((first :: rest).map .id) := by
        unfold fieldOf
        rcases lists.get?_cases with ⟨-, empty⟩ | found
        · rw [listed] at empty
          cases empty
        · rw [found, listed]
          rfl
      have filled : (fieldOf document "groups").isTruthy = true := by
        rw [held]
        rfl
      obtain ⟨others, left, sameDocuments, leftRearranged, fetched⟩ :=
        finish_fetch rearranges rearranged tenant.groups
          ((first :: rest).map .id)
      have looked :
          ∀ group ∈ first :: rest,
            documentOf
                (others.filter
                  (Filter.admits
                    [("_id", .oneOf ((first :: rest).map .id))]))
                (.id group) =
              (tenant.holdings start).groups.find? (hasId group) :=
        fun group member =>
          documentOf_fetched keyed sameDocuments (List.mem_map.mpr
            ⟨group, member, rfl⟩)
      refine ⟨left, leftRearranged, ?_⟩
      rw [listed] at entries
      rw [if_pos filled, held, groupsIn, Program.finish_bind_of_ok fetched,
        ← held, entries, Program.finish_bind, Program.finish_ofExcept]
      exact finish_gather inherited looked left

theorem find?_isKey_ids (ids : List ObjectId) :
    (ids.map Value.id).find? (!·.isKey) = none := by
  rw [List.find?_eq_none]
  intro value member
  obtain ⟨id, -, rfl⟩ := List.mem_map.mp member
  exact Bool.false_ne_true

theorem finish_policiesOf
    (rearranges : Program.Rearranges interfere)
    {store start : Store} (rearranged : store.Rearranged start)
    (keyed : Keyed (tenant.holdings start).policies) (ids : List ObjectId) :
    (Program.finish interfere (policiesOf tenant (ids.map .id)) store).1 =
      .ok (ids.filterMap (tenant.holdings start).policy?) := by
  unfold policiesOf
  rw [find?_isKey_ids]
  cases ids with
  | nil =>
      rfl
  | cons first rest =>
      obtain ⟨others, left, sameDocuments, -, fetched⟩ :=
        finish_fetch rearranges rearranged tenant.policies
          (Value.distinct ((first :: rest).map .id))
      have looked :
          ∀ id ∈ first :: rest,
            documentOf
                (others.filter
                  (Filter.admits
                    [("_id",
                      .oneOf (Value.distinct ((first :: rest).map .id)))]))
                (.id id) =
              (tenant.holdings start).policies.find? (hasId id) :=
        fun id member =>
          documentOf_fetched keyed sameDocuments (mem_distinct_ids member)
      have filled : ((first :: rest).map Value.id).isEmpty = false := rfl
      simp only [filled, Bool.false_eq_true, if_false]
      rw [Program.finish_bind_of_ok fetched, finish_valid looked left]
      rfl

/-- Whatever the order in which the store returns documents, the policies that are
loaded for a principal are its effective ones; a text that is no identifier has
none. -/
theorem effective_of_rearranged
    (rearranges : Program.Rearranges interfere) (store : Store)
    (keyed : (tenant.holdings store).Keyed)
    (lists : (tenant.holdings store).ListsIds) (principal : String) :
    (Program.run interfere
        (effective tenant (.text principal)) store).result =
      .ok (match ObjectId.ofHex? principal with
        | some id => (tenant.holdings store).effectivePolicies id
        | none => []) := by
  have start : store.Rearranged store := fun name => .refl _
  have read : (Value.text principal).recordId? = ObjectId.ofHex? principal :=
    rfl
  change (Program.finish interfere _ store).1 = _
  unfold effective
  rw [read]
  cases ObjectId.ofHex? principal with
  | none =>
      rfl
  | some id =>
      obtain ⟨left, leftRearranged, found⟩ :=
        finish_findOne rearranges start keyed.principals id
      simp only [Holdings.effectivePolicies, Holdings.effectiveIds]
      rw [Program.finish_bind_of_ok found]
      cases held : (tenant.holdings store).principals.find? (hasId id) with
      | none =>
          have missing :
              (store.documents tenant.principals).find? (hasId id) = none :=
            held
          rw [missing]
          rfl
      | some document =>
          have present :
              (store.documents tenant.principals).find? (hasId id) =
                some document :=
            held
          have member := List.mem_of_find?_eq_some held
          obtain ⟨last, lastRearranged, inherited⟩ :=
            finish_groupPolicyIds rearranges leftRearranged keyed.groups
              lists.inherited (lists.groups document member)
          simp only [present]
          rw [entries_of_lists (lists.own document member),
            Program.finish_bind, Program.finish_ofExcept]
          simp only
          rw [Program.finish_bind_of_ok inherited, ← List.map_append]
          exact finish_policiesOf rearranges lastRearranged keyed.policies _

end Loading

theorem uses_gather
    {allowed : Command → Prop} (unit : String) (found : List Fields)
    (groups : List Value) :
    (gather unit found groups).Uses allowed := by
  induction groups with
  | nil =>
      exact .pure []
  | cons group rest inductionHypothesis =>
      unfold gather
      cases group.isKey with
      | false =>
          exact .fail _
      | true =>
          cases documentOf found group with
          | none =>
              exact .note _ inductionHypothesis
          | some document =>
              exact (Program.Uses.ofExcept _).bind fun ids =>
                inductionHypothesis.bind fun others => .pure _

theorem uses_valid
    {allowed : Command → Prop} (found : List Fields) (ids : List Value) :
    (valid found ids).Uses allowed := by
  induction ids with
  | nil =>
      exact .pure []
  | cons id rest inductionHypothesis =>
      unfold valid
      cases documentOf found id with
      | none =>
          exact inductionHypothesis
      | some document =>
          simp only
          cases Policy.ofFields document with
          | ok policy =>
              exact inductionHypothesis.bind fun others => .pure _
          | error issues =>
              exact .note _ inductionHypothesis

variable (tenant : Tenant)

theorem reads_groupsIn (groups : Value) :
    (groupsIn tenant groups).Uses tenant.Reads := by
  have searched (filter : Filter) :
      (Program.query tenant.groups (.find filter)).Uses tenant.Reads :=
    .query ⟨Deed.reads_find filter, tenant.keeps_groups⟩
  cases groups with
  | list ids =>
      exact searched _
  | _ =>
      exact (searched []).bind fun documents => .ofExcept _

theorem reads_groupPolicyIds (groups : Value) :
    (groupPolicyIds tenant groups).Uses tenant.Reads := by
  unfold groupPolicyIds
  cases groups.isTruthy with
  | false =>
      exact .pure []
  | true =>
      exact (reads_groupsIn tenant groups).bind fun found =>
        (Program.Uses.ofExcept _).bind fun names =>
          uses_gather tenant.unit found names

theorem reads_policiesOf (ids : List Value) :
    (policiesOf tenant ids).Uses tenant.Reads := by
  unfold policiesOf
  cases ids.find? (!·.isKey) with
  | some id =>
      exact .fail _
  | none =>
      cases ids.isEmpty with
      | true =>
          exact .pure []
      | false =>
          have fetched :
              (fetch tenant.policies (Value.distinct ids)).Uses tenant.Reads :=
            .query ⟨Deed.reads_find _, tenant.keeps_policies⟩
          exact fetched.bind fun found => uses_valid found ids

/-- Loading the policies of a principal reads documents of its tenant only. -/
theorem reads_effective (principal : Value) :
    (effective tenant principal).Uses tenant.Reads := by
  unfold effective
  cases principal.recordId? with
  | none =>
      exact .note _ (.pure [])
  | some id =>
      have found :
          (Program.query tenant.principals (.findOne (Filter.byId id))).Uses
            tenant.Reads :=
        .query ⟨Deed.reads_findOne _, tenant.keeps_principals⟩
      refine found.bind ?_
      intro found
      cases found with
      | none =>
          exact .pure []
      | some document =>
          exact (Program.Uses.ofExcept _).bind fun own =>
            (reads_groupPolicyIds tenant _).bind fun inherited =>
              reads_policiesOf tenant _

theorem readOnly_effective (principal : Value) :
    (effective tenant principal).ReadOnly :=
  (reads_effective tenant principal).mono fun _ reads => reads.1

end Registry

/-- The store with every collection backwards. -/
def Store.reversed (store : Store) : Store :=
  ⟨store.collections.map fun collection =>
    (collection.1, collection.2.reverse)⟩

theorem Store.documents_reversed (store : Store) (name : String) :
    store.reversed.documents name = (store.documents name).reverse := by
  obtain ⟨collections⟩ := store
  unfold reversed documents
  induction collections with
  | nil =>
      rfl
  | cons collection rest inductionHypothesis =>
      obtain ⟨key, held⟩ := collection
      rw [List.map_cons, List.lookup_cons, List.lookup_cons]
      cases name == key with
      | true =>
          rfl
      | false =>
          exact inductionHypothesis

/-- Somebody turns every collection around before each command. -/
def Program.reversing (_ : Command) (store : Store) : Store := store.reversed

theorem Program.reversing_rearranges : Rearranges reversing := by
  intro command store name
  have turned := store.documents_reversed name
  exact turned ▸ List.reverse_perm _

namespace Registry

/-- A tenant with one principal, who has one policy of its own and the policies of a
group twice. -/
def crew : Tenant := ⟨"crew", "crew"⟩

def crewReader : Policy :=
  ⟨"read", .allow, ["*:Read"], ["*"], none⟩

def crewWriter : Policy :=
  ⟨"write", .allow, ["*:Write"], ["*"], none⟩

def crewHoldings : Holdings where
  policies :=
    [("_id", .id (.numbered 3)) :: crewWriter.dump,
     ("_id", .id (.numbered 4)) :: crewReader.dump]
  principals :=
    [[("_id", .id (.numbered 1)), ("policies", .list [.id (.numbered 4)]),
      ("groups", .list [.id (.numbered 2), .id (.numbered 2)])]]
  groups :=
    [[("_id", .id (.numbered 2)),
      ("policies", .list [.id (.numbered 3), .id (.numbered 9)])]]

def crewStore : Store :=
  ((Store.empty.write crew.policies crewHoldings.policies).write
    crew.principals crewHoldings.principals).write
      crew.groups crewHoldings.groups

theorem holdings_crewStore : crew.holdings crewStore = crewHoldings := by
  simp [crewStore]

theorem crewStore_effective :
    Program.Rearranges Program.reversing ∧
      (crew.holdings crewStore).Keyed ∧ (crew.holdings crewStore).ListsIds ∧
        (Program.run Program.reversing
            (effective crew (.text (ObjectId.numbered 1).hex)) crewStore).result =
          .ok [crewReader, crewWriter, crewWriter] := by
  have keyed : (crew.holdings crewStore).Keyed := by
    rw [holdings_crewStore]
    exact ⟨by decide, by decide, by decide⟩
  have lists : (crew.holdings crewStore).ListsIds := by
    rw [holdings_crewStore]
    exact ⟨by decide, by decide, by decide⟩
  have meant : crewHoldings.effectivePolicies (.numbered 1) =
      [crewReader, crewWriter, crewWriter] := rfl
  have loaded :=
    effective_of_rearranged Program.reversing_rearranges crewStore keyed
      lists (ObjectId.numbered 1).hex
  rw [ObjectId.ofHex?_hex, holdings_crewStore] at loaded
  exact
    ⟨Program.reversing_rearranges, keyed, lists, meant ▸ loaded⟩

end Registry

end AccessControl
