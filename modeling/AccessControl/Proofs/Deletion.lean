import AccessControl.Proofs.Entries
import Mathlib.Data.List.Forall2

/-!
# What a deletion takes away

When a policy is deleted, its document goes, its identifier goes from every list, and
so just its entries go from what every principal is given; everything else stays as it
is and in its order: `Tenant.run_delete`.
-/

namespace AccessControl

namespace Fields

/-- The document with the policy taken out of its list. -/
def releasing (document : Fields) (id : ObjectId) : Fields :=
  if Filter.admits [("policies", .equals (.id id))] document then
    (ArrayEdit.pull "policies" (.id id)).apply document
  else document

/-- The second document is the first one but for the policy, which was taken out of its
list at every place. -/
structure Delists (id : ObjectId) (before after : Fields) : Prop where
  names : after.names = before.names
  others : ∀ name, name ≠ "policies" → after.get? name = before.get? name
  listed :
    after.listed? "policies" = some ((before.listed "policies").filter (· ≠ id))
  spared : id ∉ before.listed "policies" → after = before

theorem names_set_of_mem
    {fields : Fields} {name : String} (member : name ∈ fields.names)
    (value : Value) :
    (fields.set name value).names = fields.names := by
  induction fields with
  | nil =>
      cases member
  | cons field rest inductionHypothesis =>
      obtain ⟨key, old⟩ := field
      unfold set
      by_cases same : key = name
      · rw [if_pos same]
        exact congrArg (· :: names rest) same.symm
      · rw [if_neg same]
        have later : name ∈ names rest := by
          rcases List.mem_cons.mp member with first | later
          · exact absurd first.symm same
          · exact later
        exact congrArg (key :: ·) (inductionHypothesis later)

/-- At most the list of policies is written over. -/
theorem releasing_cases (document : Fields) (id : ObjectId) :
    document.releasing id = document ∨
      ∃ old new,
        document.get? "policies" = some old ∧
          document.releasing id = document.set "policies" new := by
  unfold releasing ArrayEdit.apply
  split
  · dsimp only
    split
    · rename_i items held
      exact .inr ⟨_, _, held, rfl⟩
    · exact .inl rfl
  · exact .inl rfl

theorem get?_releasing_of_ne
    (document : Fields) (id : ObjectId) {name : String}
    (different : name ≠ "policies") :
    (document.releasing id).get? name = document.get? name := by
  rcases document.releasing_cases id with same | ⟨old, new, -, written⟩
  · rw [same]
  · rw [written, get?_set_of_ne different]

theorem names_releasing (document : Fields) (id : ObjectId) :
    (document.releasing id).names = document.names := by
  rcases document.releasing_cases id with same | ⟨old, new, held, written⟩
  · rw [same]
  · have member : "policies" ∈ document.names := by
      by_contra absent
      rw [get?_eq_none_iff.mpr absent] at held
      cases held
    rw [written, names_set_of_mem member]

theorem Lists.delists_releasing
    {document : Fields} (lists : document.Lists "policies") (id : ObjectId) :
    Delists id document (document.releasing id) where
  names := names_releasing document id
  others _ different := get?_releasing_of_ne document id different
  listed := Operation.listed?_released lists id
  spared absent := if_neg (mt (lists.admits_iff id).mp absent)

theorem Lists.listed_releasing
    {document : Fields} (lists : document.Lists "policies") (id : ObjectId) :
    (document.releasing id).listed "policies" =
      (document.listed "policies").filter (· ≠ id) :=
  (lists_of_listed? (lists.delists_releasing id).listed).2

theorem forall₂_delists
    {documents : List Fields}
    (lists : ∀ document ∈ documents, document.Lists "policies")
    (id : ObjectId) :
    List.Forall₂ (Delists id) documents
      (documents.map (releasing · id)) :=
  List.forall₂_map_right_iff.mpr
    (List.forall₂_same.mpr fun document member =>
      (lists document member).delists_releasing id)

end Fields

/-- Where identifiers are kept apart, the first document with an identifier is the only
one. -/
theorem Keyed.dropFirst_eq_filter
    {documents : List Fields} (keyed : Keyed documents) (id : ObjectId) :
    Store.dropFirst (Filter.byId id).admits documents =
      documents.filter fun document => !hasId id document := by
  induction documents with
  | nil =>
      rfl
  | cons first rest inductionHypothesis =>
      have restKeyed := keyed.of_sublist (List.sublist_cons_self first rest)
      have admitted :
          (Filter.byId id).admits first = true ↔ hasId id first = true :=
        keyed.admits_byId_iff List.mem_cons_self
      unfold Store.dropFirst
      by_cases has : hasId id first = true
      · have others :
            rest.filter (fun document => !hasId id document) = rest := by
          refine List.filter_eq_self.mpr fun document member => ?_
          have apart : Fields.Apart "_id" ([] ++ first :: rest) :=
            keyed.distinct
          have different :=
            apart.get?_ne (hasId_iff.mp has) (Value.sharp_id id) document
              member
          rw [Bool.not_eq_true', ← Bool.not_eq_true, hasId_iff]
          exact different
        rw [if_pos (admitted.mpr has), List.filter_cons_of_neg (by simp [has]),
          others]
      · rw [if_neg (mt admitted.mp has),
          List.filter_cons_of_pos (by simp [has]),
          inductionHypothesis restKeyed]

namespace Holdings

/-- The holdings without a policy, which is also taken out of all lists. -/
def without (holdings : Holdings) (id : ObjectId) : Holdings where
  policies := holdings.policies.filter fun document => !hasId id document
  principals := holdings.principals.map (Fields.releasing · id)
  groups := holdings.groups.map (Fields.releasing · id)

variable {holdings : Holdings} (id : ObjectId)

theorem Keyed.without (keyed : holdings.Keyed) :
    (holdings.without id).Keyed where
  policies := keyed.policies.of_sublist List.filter_sublist
  principals :=
    keyed.principals.map fun document =>
      document.get?_releasing_of_ne id (by decide)
  groups :=
    keyed.groups.map fun document =>
      document.get?_releasing_of_ne id (by decide)

theorem lists_without
    (lists : ∀ document ∈ holdings.members, document.Lists "policies") :
    ∀ document ∈ (holdings.without id).members,
      document.Lists "policies" ∧ id ∉ document.listed "policies" := by
  intro document member
  unfold members Holdings.without at member
  rw [← List.map_append] at member
  obtain ⟨old, inMembers, rfl⟩ := List.mem_map.mp member
  have oldLists := lists old inMembers
  refine ⟨(Fields.lists_of_listed? (oldLists.delists_releasing id).listed).1,
    ?_⟩
  rw [oldLists.listed_releasing]
  simp

theorem namedPolicy?_without (other : ObjectId) :
    (holdings.without id).namedPolicy? other =
      if other = id then none else holdings.namedPolicy? other := by
  have sought :
      (holdings.without id).policies.find? (hasId other) =
        if other = id then none
        else holdings.policies.find? (hasId other) := by
    unfold Holdings.without
    rw [List.find?_filter]
    by_cases same : other = id
    · rw [if_pos same, same]
      exact List.find?_eq_none.mpr fun document _ => by simp
    · rw [if_neg same]
      refine congrArg (List.find? · holdings.policies) ?_
      funext document
      rw [Bool.eq_iff_iff, decide_eq_true_iff]
      refine and_iff_right_of_imp fun has => ?_
      rw [Bool.not_eq_true', ← Bool.not_eq_true, hasId_iff, hasId_iff.mp has]
      simpa using same
  unfold namedPolicy? policy?
  rw [sought]
  split
  · rfl
  · rfl

/-- A principal names the same groups as before, and each of them lists what it listed but
for the policy. -/
theorem namedIds_without
    (lists : ∀ document ∈ holdings.members, document.Lists "policies")
    {document : Fields} (member : document ∈ holdings.members) :
    (holdings.without id).namedIds (document.releasing id) =
      (holdings.namedIds document).map (List.filter (· ≠ id)) := by
  have groups :
      Registry.fieldOf (document.releasing id) "groups" =
        Registry.fieldOf document "groups" := by
    unfold Registry.fieldOf
    rw [document.get?_releasing_of_ne id (by decide)]
  have named :=
    Registry.namedGroups_map
      (fun group => group.get?_releasing_of_ne id (by decide))
      holdings.groups (Registry.fieldOf document "groups")
  unfold namedIds
  rw [groups]
  refine (congrArg (Except.map _) named).trans ?_
  cases searched : Registry.namedGroups holdings.groups
      (Registry.fieldOf document "groups") with
  | error failure =>
      rfl
  | ok found =>
      refine congrArg Except.ok ?_
      have inherited :
          (found.map (Fields.releasing · id)).flatMap
              (Fields.listed · "policies") =
            (found.flatMap (Fields.listed · "policies")).filter
              (· ≠ id) := by
        rw [List.flatMap_map, List.filter_flatMap]
        refine List.flatMap_congr fun group among => ?_
        have inGroups := Registry.mem_of_mem_namedGroups searched among
        exact
          (lists group (List.mem_append_right _ inGroups)).listed_releasing id
      dsimp only
      rw [(lists document member).listed_releasing, inherited,
        List.filter_append]

theorem filterMap_namedPolicy?_without (ids : List ObjectId) :
    (ids.filter (· ≠ id)).filterMap (holdings.without id).namedPolicy? =
      (ids.filterMap holdings.namedPolicy?).filter (·.1 ≠ id) := by
  rw [List.filterMap_filter, List.filter_filterMap]
  refine List.filterMap_congr fun other _ => ?_
  rw [namedPolicy?_without]
  unfold namedPolicy?
  by_cases same : other = id
  · cases holdings.policy? other <;> simp [same, Option.filter]
  · cases holdings.policy? other <;> simp [same, Option.filter]

/-- Of the entries of a principal, those of the policy are gone, and the other ones are
as they were. -/
theorem entries_without
    (lists : ∀ document ∈ holdings.members, document.Lists "policies")
    (principal : Value) :
    (holdings.without id).entries principal =
      (holdings.entries principal).map (List.filter (·.1 ≠ id)) := by
  unfold entries
  cases principal.recordId? with
  | none =>
      rfl
  | some principalId =>
      have asked :
          hasId principalId ∘ (Fields.releasing · id) = hasId principalId := by
        funext document
        exact
          hasId_of_get?_eq (document.get?_releasing_of_ne id (by decide))
            principalId
      have sought :
          (holdings.without id).principals.find? (hasId principalId) =
            (holdings.principals.find? (hasId principalId)).map
              (Fields.releasing · id) := by
        unfold Holdings.without
        rw [List.find?_map, asked]
      dsimp only
      rw [sought]
      cases found : holdings.principals.find? (hasId principalId) with
      | none =>
          rfl
      | some document =>
          have member : document ∈ holdings.members :=
            List.mem_append_left _ (List.mem_of_find?_eq_some found)
          simp only [Option.map_some, namedIds_without id lists member]
          cases holdings.namedIds document with
          | error failure =>
              rfl
          | ok ids =>
              exact congrArg Except.ok (filterMap_namedPolicy?_without id ids)

end Holdings

/-! ## Deletion -/

namespace Tenant

variable {tenant : Tenant} {store : Store}

theorem holdings_removing_eq_without
    (keyed : Keyed (tenant.holdings store).policies) (id : ObjectId) :
    tenant.holdings (tenant.removing store id) =
      (tenant.holdings store).without id := by
  rw [holdings_removing, keyed.dropFirst_eq_filter]
  rfl

/-- Deleting a stored policy succeeds.  From then on every principal is given what it
was given before, or fails as it failed before, but for the entries of that policy; the
other ones keep their order.  The policy's document is gone and no list names it, and
nothing else in the documents of the tenant has changed. -/
theorem run_delete
    (keyed : (tenant.holdings store).Keyed)
    (lists :
      ∀ document ∈ (tenant.holdings store).members,
        document.Lists "policies")
    {policy : Value} {id : ObjectId} (read : policy.recordId? = some id)
    (live : (tenant.holdings store).Stores id) :
    ∃ left,
      (Operation.delete policy).run tenant store =
        (.ok (.value (Registry.done "Policy deleted successfully")), left) ∧
      (∀ principal,
        ((Operation.load principal).run tenant store).1 =
            ((tenant.holdings store).entries principal).map .ofEntries ∧
          ((Operation.load principal).run tenant left).1 =
            (((tenant.holdings store).entries principal).map
              (List.filter (·.1 ≠ id))).map .ofEntries) ∧
      (∀ document ∈ (tenant.holdings left).members,
        document.Lists "policies" ∧ id ∉ document.listed "policies") ∧
      (tenant.holdings left).policies =
        (tenant.holdings store).policies.filter (!hasId id ·) ∧
      List.Forall₂ (Fields.Delists id) (tenant.holdings store).principals
        (tenant.holdings left).principals ∧
      List.Forall₂ (Fields.Delists id) (tenant.holdings store).groups
        (tenant.holdings left).groups := by
  have present :
      (store.documents tenant.policies).any (Filter.byId id).admits =
        true := by
    obtain ⟨document, member, has⟩ := live
    exact
      List.any_eq_true.mpr ⟨document, member, admits_byId_of_hasId has⟩
  have deleted :
      (Operation.delete policy).run tenant store =
        (.ok (.value (Registry.done "Policy deleted successfully")),
          tenant.removing store id) := by
    rw [Operation.run_eq_map tenant store rfl,
      Operation.finish_delete tenant store read, if_pos present]
    rfl
  have leftHoldings := holdings_removing_eq_without keyed.policies id
  refine ⟨tenant.removing store id, deleted, fun principal => ⟨?_, ?_⟩, ?_⟩
  · exact Operation.run_load keyed lists principal
  · have leftKeyed := leftHoldings ▸ keyed.without id
    have leftLists :
        ∀ document ∈
            (tenant.holdings (tenant.removing store id)).members,
          document.Lists "policies" := by
      rw [leftHoldings]
      exact fun document member =>
        (Holdings.lists_without id lists document member).1
    rw [Operation.run_load leftKeyed leftLists, leftHoldings,
      Holdings.entries_without id lists]
  · rw [leftHoldings]
    exact
      ⟨Holdings.lists_without id lists, rfl,
        Fields.forall₂_delists
          (fun document member =>
            lists document (List.mem_append_left _ member)) id,
        Fields.forall₂_delists
          (fun document member =>
            lists document (List.mem_append_right _ member)) id⟩

/-- A tenant with two policies.  The first one is on the list of a principal twice, and
twice on that of a group that the principal names twice; another principal has no list
and names a group that does not exist. -/
def depot : Tenant := ⟨"depot", "depot"⟩

def depotReader : Policy :=
  ⟨"read", .allow, ["*:Read"], ["*"], none⟩

def depotWriter : Policy :=
  ⟨"write", .deny, ["*:Write"], ["*"], none⟩

def depotHoldings : Holdings where
  policies :=
    [("_id", .id (.numbered 1)) :: depotReader.dump,
     ("_id", .id (.numbered 2)) :: depotWriter.dump]
  principals :=
    [[("_id", .id (.numbered 3)),
      ("policies",
        .list [.id (.numbered 1), .id (.numbered 2), .id (.numbered 1)]),
      ("groups", .list [.id (.numbered 5), .id (.numbered 5)])],
     [("_id", .id (.numbered 4)), ("groups", .list [.id (.numbered 9)])]]
  groups :=
    [[("_id", .id (.numbered 5)), ("title", .text "keepers"),
      ("policies",
        .list [.id (.numbered 1), .id (.numbered 2), .id (.numbered 1)])]]

def depotStore : Store :=
  ((Store.empty.write depot.policies depotHoldings.policies).write
    depot.principals depotHoldings.principals).write
      depot.groups depotHoldings.groups

theorem holdings_depotStore : depot.holdings depotStore = depotHoldings := by
  simp [depotStore]

theorem depotStore_deleted :
    (depot.holdings depotStore).Keyed ∧
      (∀ document ∈ (depot.holdings depotStore).members,
        document.Lists "policies") ∧
      (Value.text (ObjectId.numbered 1).hex).recordId? =
        some (ObjectId.numbered 1) ∧
      (depot.holdings depotStore).Stores (.numbered 1) ∧
      ∃ left,
        (Operation.delete (.text (ObjectId.numbered 1).hex)).run depot
            depotStore =
          (.ok (.value (Registry.done "Policy deleted successfully")),
            left) ∧
        ((Operation.load (.id (.numbered 3))).run depot depotStore).1 =
          .ok (.policies
            [depotReader, depotWriter, depotReader,
             depotReader, depotWriter, depotReader,
             depotReader, depotWriter, depotReader]) ∧
        ((Operation.load (.id (.numbered 3))).run depot left).1 =
          .ok (.policies [depotWriter, depotWriter, depotWriter]) := by
  have keyed : (depot.holdings depotStore).Keyed := by
    rw [holdings_depotStore]
    exact ⟨by decide, by decide, by decide⟩
  have lists :
      ∀ document ∈ (depot.holdings depotStore).members,
        document.Lists "policies" := by
    rw [holdings_depotStore]
    decide
  have read :
      (Value.text (ObjectId.numbered 1).hex).recordId? =
        some (ObjectId.numbered 1) :=
    ObjectId.ofHex?_hex _
  have live : (depot.holdings depotStore).Stores (.numbered 1) := by
    rw [holdings_depotStore]
    decide
  obtain ⟨left, deleted, loaded, -⟩ := run_delete keyed lists read live
  obtain ⟨before, after⟩ := loaded (.id (.numbered 3))
  rw [holdings_depotStore] at before after
  exact ⟨keyed, lists, read, live, left, deleted, before, after⟩

end Tenant

end AccessControl
